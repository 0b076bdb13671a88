import Anope.Cert.Effects

/-!
# When certificates belong to one account

The table and the lists agree as long as no fingerprint gets a second owner and no
certificate hides another one that differs from it in case only.
-/

namespace Anope.Cert.State

open Library Anope.Text

variable {α ρ : Type} [DecidableEq α] [DecidableEq ρ] {casemap : Casemap} {state next : State α ρ}
  {nc : α} {p : ρ} {entry : Str}

/-- A fingerprint leads to the account whose list contains it, and the table has no
entry for a deleted certificate. -/
def Consistent (casemap : Casemap) (state : State α ρ) : Prop :=
  (∀ f nc, state.findAccountFromCert casemap f = some nc ↔ state.Holds casemap nc f) ∧
    state.NoneDeleted

/-- The keys of the table are fingerprints without case. -/
def Keyed (casemap : Casemap) (state : State α ρ) : Prop :=
  ∀ key p, state.certmap key = some p → ∃ f, casemap.ciStr f = key

/-- No other account has a fingerprint. -/
def FreeFor (casemap : Casemap) (state : State α ρ) (nc : α) (f : Str) : Prop :=
  ∀ other, state.Holds casemap other f → other = nc

/-- No other certificate of the account is equal but for case. -/
def Sole (casemap : Casemap) (state : State α ρ) (nc : α) (p : ρ) (entry : Str) : Prop :=
  ∀ q ∈ state.list nc, q ≠ p → ∀ cert, state.heap q = some cert →
    casemap.ciStr cert.fingerprint ≠ casemap.ciStr entry

/-- The table has a certificate under this fingerprint only. -/
def OnlyKey (casemap : Casemap) (state : State α ρ) (p : ρ) (entry : Str) : Prop :=
  ∀ key, state.certmap key = some p → key = casemap.ciStr entry

/-- What replacing a certificate needs. -/
def Replaceable (casemap : Casemap) (state : State α ρ) (nc : α) (oldentry newentry : Str) : Prop :=
  ∀ p, state.findIf nc oldentry = some p →
    if (state.findIf nc newentry).isSome then
      state.Sole casemap nc p oldentry ∧ state.OnlyKey casemap p oldentry
    else
      state.FreeFor casemap nc newentry ∧
        (casemap.ciStr oldentry = casemap.ciStr newentry ∨ state.Sole casemap nc p oldentry)

/-- What an operation needs to leave the table and the lists in agreement. -/
def Keeps (casemap : Casemap) (state : State α ρ) : Action α ρ → Prop
  | .eraseCert nc entry =>
      ∀ p, state.findIf nc entry = some p →
        state.Sole casemap nc p entry ∧ state.OnlyKey casemap p entry
  | .replaceCert nc oldentry newentry => state.Replaceable casemap nc oldentry newentry
  | .serviceReplaceCert oldcert newcert =>
      ∀ nc, state.findAccountFromCert casemap oldcert = some nc →
        state.Replaceable casemap nc oldcert newcert
  | .load nc fingerprint _ => (state.certs nc).isSome = true → state.FreeFor casemap nc fingerprint
  | .reload nc fingerprint p =>
      (state.certs nc).isSome = true → ∀ cert, state.heap p = some cert →
        casemap.ciStr cert.fingerprint = casemap.ciStr fingerprint ∨
          ¬ state.Sole casemap cert.account p cert.fingerprint ∧
            ¬ state.Sole casemap cert.account p fingerprint
  | .legacy nc certstr _ =>
      certstr.isEmpty = false → ∀ token ∈ spaceTokens certstr, state.FreeFor casemap nc token
  | _ => True

omit [DecidableEq α] [DecidableEq ρ] in
/-- A fingerprint that an account has leads to no other account. -/
theorem Consistent.unique (consistent : state.Consistent casemap) {other : α} {f : Str}
    (holds : state.Holds casemap nc f) (holdsOther : state.Holds casemap other f) : other = nc :=
  Option.some.inj (((consistent.1 f other).mpr holdsOther).symm.trans
    ((consistent.1 f nc).mpr holds))

/-! ## Deleting -/

theorem find_delete_eq_some_iff {other : α} {f : Str} :
    (delete (state.eraseKey casemap entry) nc p).findAccountFromCert casemap f = some other ↔
      casemap.ciStr f ≠ casemap.ciStr entry ∧
        ∃ q cert, q ≠ p ∧ state.certmap (casemap.ciStr f) = some q ∧
          state.heap q = some cert ∧ cert.account = other := by
  rw [find_eq_some_iff]
  constructor
  · rintro ⟨q, cert, mapped, found, account⟩
    obtain ⟨key, mapped⟩ := update_none_eq_some_iff.mp mapped
    obtain ⟨different, found⟩ := update_none_eq_some_iff.mp found
    exact ⟨key, q, cert, different, mapped, found, account⟩
  · rintro ⟨key, q, cert, different, mapped, found, account⟩
    exact ⟨q, cert, update_none_eq_some_iff.mpr ⟨key, mapped⟩,
      update_none_eq_some_iff.mpr ⟨different, found⟩, account⟩

/-- Deleting a certificate keeps the agreement exactly when no other one of the
account is equal but for case and the table has it under no other fingerprint. -/
theorem consistent_delete_iff (sound : state.Sound) (consistent : state.Consistent casemap)
    (found : state.findIf nc entry = some p) :
    (delete (state.eraseKey casemap entry) nc p).Consistent casemap ↔
      state.Sole casemap nc p entry ∧ state.OnlyKey casemap p entry := by
  have mem : p ∈ state.list nc := List.mem_of_find?_eq_some found
  obtain ⟨cert, isCert, account, text⟩ := sound.of_findIf found
  constructor
  · intro after
    constructor
    · intro q isIn different other isOther same
      obtain ⟨again, isAgain, owner⟩ := (sound.listed nc q).mp isIn
      cases isAgain.symm.trans isOther
      have holds : (delete (state.eraseKey casemap entry) nc p).Holds casemap nc entry :=
        (holds_delete_iff sound mem).mpr ⟨q, other, different, isOther, owner, same⟩
      exact (find_delete_eq_some_iff.mp ((after.1 entry nc).mpr holds)).1 rfl
    · intro key mapped
      by_contra other
      have live := after.2 key p (update_none_eq_some_iff.mpr ⟨other, mapped⟩)
      obtain ⟨cert, found⟩ := Option.isSome_iff_exists.mp live
      exact (update_none_eq_some_iff.mp found).1 rfl
  · rintro ⟨sole, onlyKey⟩
    have others : ∀ q, q ≠ p → ∀ other f, state.heap q = some other →
        casemap.ciStr other.fingerprint = casemap.ciStr f →
        casemap.ciStr f ≠ casemap.ciStr entry := by
      intro q different other f isOther same is
      have holds : state.Holds casemap nc entry := sound.holds_iff.mpr
        ⟨p, cert, isCert, account, congrArg casemap.ciStr text⟩
      have owner : other.account = nc := consistent.unique holds
        (sound.holds_iff.mpr ⟨q, other, isOther, rfl, same.trans is⟩)
      exact sole q ((sound.listed nc q).mpr ⟨other, isOther, owner⟩) different other isOther
        (same.trans is)
    constructor
    · intro f other
      rw [find_delete_eq_some_iff, holds_delete_iff sound mem]
      constructor
      · rintro ⟨key, q, entryOf, different, mapped, isEntry, owner⟩
        have holds := (consistent.1 f other).mp
          (find_eq_some_iff.mpr ⟨q, entryOf, mapped, isEntry, owner⟩)
        obtain ⟨r, held, isHeld, ownerHeld, same⟩ := sound.holds_iff.mp holds
        refine ⟨r, held, ?_, isHeld, ownerHeld, same⟩
        rintro rfl
        cases isHeld.symm.trans isCert
        exact key (same.symm.trans (congrArg casemap.ciStr text))
      · rintro ⟨q, held, different, isHeld, owner, same⟩
        have key := others q different held f isHeld same
        obtain ⟨r, mappedCert, mapped, isMapped, ownerMapped⟩ := find_eq_some_iff.mp
          ((consistent.1 f other).mpr (sound.holds_iff.mpr ⟨q, held, isHeld, owner, same⟩))
        refine ⟨key, r, mappedCert, ?_, mapped, isMapped, ownerMapped⟩
        rintro rfl
        exact key (onlyKey _ mapped)
    · intro key q mapped
      obtain ⟨other, isMapped⟩ := update_none_eq_some_iff.mp mapped
      obtain ⟨held, found⟩ := Option.isSome_iff_exists.mp (consistent.2 key q isMapped)
      refine Option.isSome_iff_exists.mpr ⟨held, update_none_eq_some_iff.mpr ⟨?_, found⟩⟩
      rintro rfl
      exact other (onlyKey key isMapped)

theorem consistent_eraseCert_iff (sound : state.Sound) (consistent : state.Consistent casemap) :
    (state.eraseCert casemap nc entry).Consistent casemap ↔
      ∀ p, state.findIf nc entry = some p →
        state.Sole casemap nc p entry ∧ state.OnlyKey casemap p entry := by
  rw [eraseCert]
  split
  · rename_i absent
    exact iff_of_true consistent fun p found => nomatch absent.symm.trans found
  · rename_i p found
    rw [consistent_delete_iff sound consistent found]
    refine ⟨?_, fun all => all p found⟩
    rintro kept q same
    cases found.symm.trans same
    exact kept

/-! ## Adding -/

/-- A fingerprint is one of those to add, but for case. -/
def Added (casemap : Casemap) (certs : List (Str × ρ)) (f : Str) : Prop :=
  ∃ cert ∈ certs, casemap.ciStr f = casemap.ciStr cert.1

/-- What adding certificates one after the other does. -/
structure Adds (casemap : Casemap) (nc : α) (certs : List (Str × ρ)) (state next : State α ρ) :
    Prop where
  sound : next.Sound
  noneDeleted : next.NoneDeleted
  find_iff : ∀ f other, next.findAccountFromCert casemap f = some other ↔
    Added casemap certs f ∧ other = nc ∨
      ¬ Added casemap certs f ∧ state.findAccountFromCert casemap f = some other
  holds_iff : ∀ f other, next.Holds casemap other f ↔
    state.Holds casemap other f ∨ Added casemap certs f ∧ other = nc

omit [DecidableEq α] [DecidableEq ρ] in
theorem added_cons_iff {cert : Str × ρ} {certs : List (Str × ρ)} {f : Str} :
    Added casemap (cert :: certs) f ↔
      casemap.ciStr f = casemap.ciStr cert.1 ∨ Added casemap certs f := by
  simp only [Added, List.mem_cons, exists_eq_or_imp]

theorem adds_foldl (sound : state.Sound) (noneDeleted : state.NoneDeleted)
    {certs : List (Str × ρ)} (distinct : (certs.map Prod.snd).Nodup)
    (free : ∀ cert ∈ certs, state.heap cert.2 = none) :
    Adds casemap nc certs state (certs.foldl (addCert casemap nc) state) := by
  induction certs generalizing state with
  | nil =>
      have none : ∀ f, ¬ Added casemap ([] : List (Str × ρ)) f := fun _ ⟨_, mem, _⟩ => nomatch mem
      exact ⟨sound, noneDeleted, fun f other => by simp [none], fun f other => by simp [none]⟩
  | cons cert certs ih =>
      obtain ⟨new, distinct⟩ := List.nodup_cons.mp distinct
      obtain ⟨freeHere, freeRest⟩ := List.forall_mem_cons.mp free
      have freeAfter : ∀ other ∈ certs, (addCert casemap nc state cert).heap other.2 = none := by
        intro other mem
        have different : other.2 ≠ cert.2 := fun same =>
          new (same ▸ List.mem_map_of_mem mem)
        exact (Function.update_of_ne different _ _).trans (freeRest other mem)
      have rest := ih (sound.addCert freeHere) noneDeleted.addCert distinct freeAfter
      refine ⟨rest.sound, rest.noneDeleted, fun f other => ?_, fun f other => ?_⟩
      · rw [List.foldl_cons, rest.find_iff, find_addCert noneDeleted freeHere, added_cons_iff]
        by_cases same : casemap.ciStr f = casemap.ciStr cert.1
        · rw [if_pos same, Option.some_inj]
          simp only [same, true_or, true_and, not_true, false_and, or_false, eq_comm]
          tauto
        · rw [if_neg same]
          simp only [same, false_or]
      · rw [List.foldl_cons, rest.holds_iff, holds_addCert_iff sound freeHere, added_cons_iff]
        tauto

theorem consistent_foldl_addCert_iff (sound : state.Sound) (consistent : state.Consistent casemap)
    {certs : List (Str × ρ)} (distinct : (certs.map Prod.snd).Nodup)
    (free : ∀ cert ∈ certs, state.heap cert.2 = none) :
    (certs.foldl (addCert casemap nc) state).Consistent casemap ↔
      ∀ cert ∈ certs, state.FreeFor casemap nc cert.1 := by
  have adds : Adds casemap nc certs state _ := adds_foldl sound consistent.2 distinct free
  constructor
  · intro after cert mem other holds
    have found := (after.1 cert.1 other).mpr ((adds.holds_iff _ _).mpr (.inl holds))
    rcases (adds.find_iff _ _).mp found with ⟨_, own⟩ | ⟨absent, _⟩
    · exact own
    · exact absurd ⟨cert, mem, rfl⟩ absent
  · intro allFree
    refine ⟨fun f other => ?_, adds.noneDeleted⟩
    rw [adds.find_iff, adds.holds_iff, consistent.1]
    by_cases added : Added casemap certs f
    · obtain ⟨cert, mem, same⟩ := added
      have own (holds : state.Holds casemap other f) : other = nc := by
        obtain ⟨p, isIn, held, found, key⟩ := holds
        exact allFree cert mem other ⟨p, isIn, held, found, key.trans same⟩
      have added : Added casemap certs f := ⟨cert, mem, same⟩
      tauto
    · tauto

/-! ## Renaming -/

/-- The state after a certificate was renamed and the table follows. -/
def rename (casemap : Casemap) (state : State α ρ) (p : ρ) (oldentry newentry : Str) : State α ρ :=
  let renamed := (state.eraseKey casemap oldentry).setFingerprint p newentry
  { renamed with certmap := Function.update renamed.certmap (casemap.ciStr newentry) (some p) }

omit [DecidableEq α] in
theorem certmap_rename {oldentry newentry key : Str} {q : ρ} :
    (state.rename casemap p oldentry newentry).certmap key = some q ↔
      key = casemap.ciStr newentry ∧ q = p ∨
        key ≠ casemap.ciStr newentry ∧ key ≠ casemap.ciStr oldentry ∧
          state.certmap key = some q := by
  rw [rename]
  dsimp only
  rw [Function.update_apply]
  split
  · rename_i same
    simp only [Option.some_inj, same, true_and, ne_eq, not_true, false_and, or_false, eq_comm]
  · rename_i different
    simp only [different, false_and, false_or, ne_eq, not_false_eq_true, true_and]
    exact update_none_eq_some_iff

omit [DecidableEq α] in
theorem find_rename_iff {cert : NSCertInfo α} (found : state.heap p = some cert)
    {oldentry newentry f : Str} {other : α} :
    (state.rename casemap p oldentry newentry).findAccountFromCert casemap f = some other ↔
      casemap.ciStr f = casemap.ciStr newentry ∧ cert.account = other ∨
        casemap.ciStr f ≠ casemap.ciStr newentry ∧ casemap.ciStr f ≠ casemap.ciStr oldentry ∧
          state.findAccountFromCert casemap f = some other := by
  have accounts (q : ρ) : ((state.rename casemap p oldentry newentry).heap q).map
      NSCertInfo.account = (state.heap q).map NSCertInfo.account :=
    map_account_setFingerprint q
  simp only [findAccountFromCert, Option.bind_eq_some_iff, accounts, certmap_rename]
  constructor
  · rintro ⟨q, ⟨same, rfl⟩ | ⟨new, old, mapped⟩, account⟩
    · rw [found] at account
      exact .inl ⟨same, Option.some.inj account⟩
    · exact .inr ⟨new, old, q, mapped, account⟩
  · rintro (⟨same, account⟩ | ⟨new, old, q, mapped, account⟩)
    · refine ⟨p, .inl ⟨same, rfl⟩, ?_⟩
      rw [found, Option.map_some, account]
    · exact ⟨q, .inr ⟨new, old, mapped⟩, account⟩

omit [DecidableEq α] in
theorem holds_rename_iff (sound : state.Sound) {cert : NSCertInfo α}
    (found : state.heap p = some cert) {oldentry newentry f : Str} {other : α} :
    (state.rename casemap p oldentry newentry).Holds casemap other f ↔
      state.HoldsBesides casemap p other f ∨
        cert.account = other ∧ casemap.ciStr newentry = casemap.ciStr f :=
  holds_setFingerprint_iff sound found

omit [DecidableEq α] in
/-- Replacing a fingerprint keeps the agreement exactly when no other account has the
new one and no other certificate of the account is equal to the old one but for case. -/
theorem consistent_rename_iff (sound : state.Sound) (consistent : state.Consistent casemap)
    {oldentry newentry : Str} (isOld : state.findIf nc oldentry = some p) :
    (state.rename casemap p oldentry newentry).Consistent casemap ↔
      state.FreeFor casemap nc newentry ∧
        (casemap.ciStr oldentry = casemap.ciStr newentry ∨
          state.Sole casemap nc p oldentry) := by
  obtain ⟨cert, found, account, text⟩ := sound.of_findIf isOld
  have key : casemap.ciStr cert.fingerprint = casemap.ciStr oldentry :=
    congrArg casemap.ciStr text
  have holdsOld : state.Holds casemap nc oldentry :=
    sound.holds_iff.mpr ⟨p, cert, found, account, key⟩
  constructor
  · intro after
    constructor
    · intro other holds
      obtain ⟨q, held, isHeld, owner, same⟩ := sound.holds_iff.mp holds
      have isNew : (state.rename casemap p oldentry newentry).findAccountFromCert casemap newentry =
          some nc := (find_rename_iff found).mpr (.inl ⟨rfl, account⟩)
      by_cases first : q = p
      · subst first
        cases isHeld.symm.trans found
        exact owner.symm.trans account
      · have holdsAfter : (state.rename casemap p oldentry newentry).Holds casemap other newentry :=
          (holds_rename_iff sound found).mpr (.inl ⟨q, held, first, isHeld, owner, same⟩)
        exact Option.some.inj (((after.1 _ _).mpr holdsAfter).symm.trans isNew)
    · refine or_iff_not_imp_left.mpr fun different q isIn first other isOther same => ?_
      obtain ⟨again, isAgain, owner⟩ := (sound.listed nc q).mp isIn
      cases isAgain.symm.trans isOther
      have holdsAfter : (state.rename casemap p oldentry newentry).Holds casemap nc oldentry :=
        (holds_rename_iff sound found).mpr (.inl ⟨q, other, first, isOther, owner, same⟩)
      rcases (find_rename_iff found).mp ((after.1 _ _).mpr holdsAfter) with ⟨is, _⟩ | ⟨_, is, _⟩
      · exact different is
      · exact is rfl
  · rintro ⟨free, sole⟩
    constructor
    · intro f other
      rw [find_rename_iff found, holds_rename_iff sound found, consistent.1,
        sound.holds_iff_of_heap found, key]
      have ofNew (rest : state.HoldsBesides casemap p other f)
          (same : casemap.ciStr f = casemap.ciStr newentry) : other = nc := by
        obtain ⟨q, held, _, isHeld, owner, isKey⟩ := rest
        exact free other (sound.holds_iff.mpr ⟨q, held, isHeld, owner, isKey.trans same⟩)
      have ofOld (rest : state.HoldsBesides casemap p other f)
          (same : casemap.ciStr f = casemap.ciStr oldentry) :
          casemap.ciStr oldentry = casemap.ciStr newentry := by
        obtain ⟨q, held, different, isHeld, owner, isKey⟩ := rest
        have own : other = nc := consistent.unique holdsOld
          (sound.holds_iff.mpr ⟨q, held, isHeld, owner, isKey.trans same⟩)
        refine sole.resolve_right fun isSole => ?_
        exact isSole q ((sound.listed nc q).mpr ⟨held, isHeld, owner.trans own⟩) different held
          isHeld (isKey.trans same)
      rw [account] at *
      constructor
      · rintro (⟨same, rfl⟩ | ⟨_, old, rest | ⟨_, same⟩⟩)
        · exact .inr ⟨rfl, same.symm⟩
        · exact .inl rest
        · exact absurd same.symm old
      · rintro (rest | ⟨rfl, same⟩)
        · by_cases new : casemap.ciStr f = casemap.ciStr newentry
          · exact .inl ⟨new, (ofNew rest new).symm⟩
          · exact .inr ⟨new, fun same => new (same.trans (ofOld rest same)), .inl rest⟩
        · exact .inl ⟨same.symm, rfl⟩
    · intro k q mapped
      have live : (state.heap q).isSome = true := by
        rcases certmap_rename.mp mapped with ⟨_, rfl⟩ | ⟨_, _, mapped⟩
        · rw [found]
          rfl
        · exact consistent.2 k q mapped
      have accounts : (((state.eraseKey casemap oldentry).setFingerprint p newentry).heap q).map
          NSCertInfo.account =
            ((state.eraseKey casemap oldentry).heap q).map NSCertInfo.account :=
        map_account_setFingerprint q
      have same := congrArg Option.isSome accounts
      rw [Option.isSome_map, Option.isSome_map] at same
      exact same.trans live

theorem consistent_replaceCert_iff (sound : state.Sound) (consistent : state.Consistent casemap)
    {oldentry newentry : Str} :
    (state.replaceCert casemap nc oldentry newentry).Consistent casemap ↔
      state.Replaceable casemap nc oldentry newentry := by
  rw [replaceCert, Replaceable]
  cases isOld : state.findIf nc oldentry with
  | none => exact iff_of_true consistent fun p found => nomatch found
  | some p =>
      have single (condition : ρ → Prop) :
          (∀ q, some p = some q → condition q) ↔ condition p :=
        ⟨fun all => all p rfl, fun is q same => Option.some.inj same ▸ is⟩
      rw [single]
      cases isNew : state.findIf nc newentry with
      | some q =>
          rw [Option.isSome_some, if_pos rfl]
          exact consistent_delete_iff sound consistent isOld
      | none =>
          rw [Option.isSome_none, if_neg Bool.false_ne_true]
          exact consistent_rename_iff sound consistent isOld

/-! ## Reloading -/

omit [DecidableEq α] [DecidableEq ρ] in
theorem HoldsBesides.congr {f g : Str} (holds : state.HoldsBesides casemap p nc f)
    (same : casemap.ciStr f = casemap.ciStr g) : state.HoldsBesides casemap p nc g := by
  obtain ⟨q, cert, different, found, owner, key⟩ := holds
  exact ⟨q, cert, different, found, owner, key.trans same⟩

omit [DecidableEq α] [DecidableEq ρ] in
theorem Sound.not_sole_iff (sound : state.Sound) :
    ¬ state.Sole casemap nc p entry ↔ state.HoldsBesides casemap p nc entry := by
  constructor
  · intro shared
    by_contra none
    refine shared fun q isIn different cert found same => none ?_
    obtain ⟨again, isAgain, owner⟩ := (sound.listed nc q).mp isIn
    cases isAgain.symm.trans found
    exact ⟨q, cert, different, found, owner, same⟩
  · rintro ⟨q, cert, different, found, owner, same⟩ sole
    exact sole q ((sound.listed nc q).mpr ⟨cert, found, owner⟩) different cert found same

omit [DecidableEq α] in
theorem find_setFingerprint (f : Str) :
    (state.setFingerprint p entry).findAccountFromCert casemap f =
      state.findAccountFromCert casemap f := by
  rw [findAccountFromCert, findAccountFromCert]
  exact Option.bind_congr fun q _ => map_account_setFingerprint q

omit [DecidableEq α] in
/-- A reloaded row keeps the agreement exactly when its fingerprint did not change, or
other certificates of the account have the old and the new one. -/
theorem consistent_setFingerprint_iff (sound : state.Sound) (consistent : state.Consistent casemap)
    {cert : NSCertInfo α} (found : state.heap p = some cert) :
    (state.setFingerprint p entry).Consistent casemap ↔
      casemap.ciStr cert.fingerprint = casemap.ciStr entry ∨
        ¬ state.Sole casemap cert.account p cert.fingerprint ∧
          ¬ state.Sole casemap cert.account p entry := by
  rw [sound.not_sole_iff, sound.not_sole_iff]
  constructor
  · intro after
    refine or_iff_not_imp_left.mpr fun changed => ?_
    have same (f : Str) : state.Holds casemap cert.account f ↔
        (state.setFingerprint p entry).Holds casemap cert.account f := by
      rw [← consistent.1, ← after.1, find_setFingerprint]
    constructor
    · have holds := (same cert.fingerprint).mp
        ((sound.holds_iff_of_heap found).mpr (.inr ⟨rfl, rfl⟩))
      exact ((holds_setFingerprint_iff sound found).mp holds).resolve_right
        fun ⟨_, is⟩ => changed is.symm
    · have holds := (same entry).mpr
        ((holds_setFingerprint_iff sound found).mpr (.inr ⟨rfl, rfl⟩))
      exact ((sound.holds_iff_of_heap found).mp holds).resolve_right fun ⟨_, is⟩ => changed is
  · intro kept
    constructor
    · intro f other
      rw [find_setFingerprint, consistent.1, sound.holds_iff_of_heap found,
        holds_setFingerprint_iff sound found]
      rcases kept with same | ⟨besidesOld, besidesNew⟩
      · rw [same]
      · refine or_congr_right' fun notBesides => iff_of_false ?_ ?_
        · rintro ⟨rfl, same⟩
          exact notBesides (besidesOld.congr same)
        · rintro ⟨rfl, same⟩
          exact notBesides (besidesNew.congr same)
    · intro key q mapped
      have accounts : ((state.setFingerprint p entry).heap q).map NSCertInfo.account =
          (state.heap q).map NSCertInfo.account := map_account_setFingerprint q
      have same := congrArg Option.isSome accounts
      rw [Option.isSome_map, Option.isSome_map] at same
      exact same.trans (consistent.2 key q mapped)

/-! ## Clearing -/

omit [DecidableEq α] [DecidableEq ρ] in
theorem Sound.mem_list_iff (sound : state.Sound) {cert : NSCertInfo α}
    (found : state.heap p = some cert) : p ∈ state.list nc ↔ cert.account = nc := by
  rw [sound.listed]
  constructor
  · rintro ⟨other, isOther, owner⟩
    cases isOther.symm.trans found
    exact owner
  · exact fun owner => ⟨cert, found, owner⟩

theorem Sound.clearCert (sound : state.Sound) : (state.clearCert casemap nc).Sound := by
  constructor
  · intro other q
    simp only [heap_clearCert_iff]
    rw [list_clearCert]
    split
    · rename_i own
      refine iff_of_false List.not_mem_nil ?_
      rintro ⟨cert, ⟨absent, found⟩, owner⟩
      exact absent ((sound.mem_list_iff found).mpr (owner.trans own))
    · rename_i foreign
      rw [sound.listed]
      refine exists_congr fun cert => ?_
      rw [and_assoc]
      refine (and_iff_right_of_imp fun ⟨found, owner⟩ isIn => ?_).symm
      exact foreign (owner.symm.trans ((sound.mem_list_iff found).mp isIn))
  · intro other
    rw [list_clearCert]
    split
    · exact List.nodup_nil
    · exact sound.distinct other

theorem holds_clearCert_iff (sound : state.Sound) {other : α} {f : Str} :
    (state.clearCert casemap nc).Holds casemap other f ↔
      state.Holds casemap other f ∧ other ≠ nc := by
  rw [sound.clearCert.holds_iff, sound.holds_iff]
  simp only [heap_clearCert_iff]
  constructor
  · rintro ⟨q, cert, ⟨absent, found⟩, owner, same⟩
    refine ⟨⟨q, cert, found, owner, same⟩, fun own => ?_⟩
    exact absent ((sound.mem_list_iff found).mpr (owner.trans own))
  · rintro ⟨⟨q, cert, found, owner, same⟩, foreign⟩
    refine ⟨q, cert, ⟨fun isIn => ?_, found⟩, owner, same⟩
    exact foreign (owner.symm.trans ((sound.mem_list_iff found).mp isIn))

/-- Clearing the list of an account keeps the agreement. -/
theorem Consistent.clearCert (consistent : state.Consistent casemap) (sound : state.Sound)
    (keyed : state.Keyed casemap) :
    (state.clearCert casemap nc).Consistent casemap := by
  constructor
  · intro f other
    rw [holds_clearCert_iff sound, find_eq_some_iff]
    simp only [heap_clearCert_iff, certmap_clearCert_iff]
    constructor
    · rintro ⟨q, cert, ⟨mapped, _⟩, ⟨absent, found⟩, owner⟩
      refine ⟨(consistent.1 f other).mp (find_eq_some_iff.mpr ⟨q, cert, mapped, found, owner⟩),
        fun own => ?_⟩
      exact absent ((sound.mem_list_iff found).mpr (owner.trans own))
    · rintro ⟨holds, foreign⟩
      obtain ⟨q, cert, mapped, found, owner⟩ :=
        find_eq_some_iff.mp ((consistent.1 f other).mpr holds)
      refine ⟨q, cert, ⟨mapped, fun named => ?_⟩, ⟨fun isIn => ?_, found⟩, owner⟩
      · exact foreign (consistent.unique named holds)
      · exact foreign (owner.symm.trans ((sound.mem_list_iff found).mp isIn))
  · intro key q mapped
    obtain ⟨mapped, unnamed⟩ := certmap_clearCert_iff.mp mapped
    obtain ⟨cert, found⟩ := Option.isSome_iff_exists.mp (consistent.2 key q mapped)
    refine Option.isSome_iff_exists.mpr ⟨cert, heap_clearCert_iff.mpr ⟨fun isIn => ?_, found⟩⟩
    obtain ⟨f, rfl⟩ := keyed key q mapped
    exact unnamed ((consistent.1 f nc).mp
      (find_eq_some_iff.mpr ⟨q, cert, mapped, found, (sound.mem_list_iff found).mp isIn⟩))

omit [DecidableEq α] [DecidableEq ρ] in
/-- Both speak of the heap, the table and the lists only. -/
theorem Consistent.of_same (consistent : state.Consistent casemap) (heap : next.heap = state.heap)
    (certmap : next.certmap = state.certmap) (lists : ∀ nc, next.list nc = state.list nc) :
    next.Consistent casemap := by
  constructor
  · intro f other
    rw [Holds, lists, heap, findAccountFromCert, certmap, heap]
    exact consistent.1 f other
  · intro key q mapped
    rw [heap]
    exact consistent.2 key q (by rwa [certmap] at mapped)

/-! ## Steps -/

theorem Sound.eraseCert (sound : state.Sound) : (state.eraseCert casemap nc entry).Sound := by
  rw [State.eraseCert]
  split
  · exact sound
  · rename_i p found
    exact sound.delete (List.mem_of_find?_eq_some found)

omit [DecidableEq α] in
theorem Sound.rename (sound : state.Sound) {oldentry newentry : Str} :
    (state.rename casemap p oldentry newentry).Sound :=
  sound.of_accounts (fun _ => rfl) map_account_setFingerprint

theorem Sound.replaceCert (sound : state.Sound) {oldentry newentry : Str} :
    (state.replaceCert casemap nc oldentry newentry).Sound := by
  rw [State.replaceCert]
  split
  · exact sound
  · rename_i p found
    dsimp only
    split
    · exact sound.delete (List.mem_of_find?_eq_some found)
    · exact sound.rename

theorem Keyed.addCert (keyed : state.Keyed casemap) :
    (addCert casemap nc state (entry, p)).Keyed casemap := by
  intro key q mapped
  rw [State.addCert] at mapped
  dsimp only at mapped
  rw [Function.update_apply] at mapped
  split at mapped
  · rename_i same
    exact ⟨entry, same.symm⟩
  · exact keyed key q mapped

theorem Keyed.delete (keyed : state.Keyed casemap) :
    (delete (state.eraseKey casemap entry) nc p).Keyed casemap :=
  fun key q mapped => keyed key q (update_none_eq_some_iff.mp mapped).2

omit [DecidableEq α] in
theorem Keyed.rename (keyed : state.Keyed casemap) {oldentry newentry : Str} :
    (state.rename casemap p oldentry newentry).Keyed casemap := by
  intro key q mapped
  rcases certmap_rename.mp mapped with ⟨same, _⟩ | ⟨_, _, mapped⟩
  · exact ⟨newentry, same.symm⟩
  · exact keyed key q mapped

theorem Keyed.eraseCert (keyed : state.Keyed casemap) :
    (state.eraseCert casemap nc entry).Keyed casemap := by
  rw [State.eraseCert]
  split
  · exact keyed
  · exact keyed.delete

theorem Keyed.replaceCert (keyed : state.Keyed casemap) {oldentry newentry : Str} :
    (state.replaceCert casemap nc oldentry newentry).Keyed casemap := by
  rw [State.replaceCert]
  split
  · exact keyed
  · dsimp only
    split
    · exact keyed.delete
    · exact keyed.rename

theorem Keyed.clearCert (keyed : state.Keyed casemap) :
    (state.clearCert casemap nc).Keyed casemap :=
  fun key q mapped => keyed key q (certmap_clearCert_iff.mp mapped).1

theorem Keyed.foldl_addCert (keyed : state.Keyed casemap) (certs : List (Str × ρ)) :
    (certs.foldl (State.addCert casemap nc) state).Keyed casemap := by
  induction certs generalizing state with
  | nil => exact keyed
  | cons cert certs ih => exact ih keyed.addCert

/-- What holds along every run. -/
def Supported (casemap : Casemap) (state : State α ρ) : Prop :=
  state.Sound ∧ state.Keyed casemap

/-- What a step does to the support and to the agreement. -/
def Exact (casemap : Casemap) (next : State α ρ) (condition : Prop) : Prop :=
  next.Supported casemap ∧ (next.Consistent casemap ↔ condition)

omit [DecidableEq α] [DecidableEq ρ] in
theorem Exact.of_same {condition : Prop} (supported : state.Supported casemap)
    (consistent : state.Consistent casemap) (heap : next.heap = state.heap)
    (certmap : next.certmap = state.certmap) (lists : ∀ nc, next.list nc = state.list nc)
    (always : condition) : Exact casemap next condition := by
  refine ⟨⟨supported.1.of_accounts lists fun _ => by rw [heap], ?_⟩,
    iff_of_true (consistent.of_same heap certmap lists) always⟩
  rw [Keyed, certmap]
  exact supported.2

theorem exact_addCert (supported : state.Supported casemap)
    (consistent : state.Consistent casemap) (free : state.heap p = none) :
    Exact casemap (addCert casemap nc state (entry, p)) (state.FreeFor casemap nc entry) := by
  refine ⟨⟨supported.1.addCert free, supported.2.addCert⟩, ?_⟩
  have distinct : ([(entry, p)].map Prod.snd).Nodup := List.nodup_singleton p
  refine (consistent_foldl_addCert_iff supported.1 consistent distinct ?_).trans ?_
  · exact List.forall_mem_singleton.mpr free
  · exact List.forall_mem_singleton

omit [DecidableEq α] [DecidableEq ρ] in
theorem certmap_of_addAllowed {max : Nat} (allowed : state.addAllowed casemap nc entry max = true) :
    state.certmap (casemap.ciStr entry) = none := by
  rw [addAllowed, Bool.and_eq_true] at allowed
  exact Option.isNone_iff_eq_none.mp allowed.2

theorem exact_clearCert {condition : Prop} (supported : state.Supported casemap)
    (consistent : state.Consistent casemap) (always : condition) :
    Exact casemap (state.clearCert casemap nc) condition :=
  ⟨⟨supported.1.clearCert, supported.2.clearCert⟩,
    iff_of_true (consistent.clearCert supported.1 supported.2) always⟩

theorem exact_replaceCert (supported : state.Supported casemap)
    (consistent : state.Consistent casemap) (oldentry newentry : Str) :
    Exact casemap (state.replaceCert casemap nc oldentry newentry)
      (state.Replaceable casemap nc oldentry newentry) :=
  ⟨⟨supported.1.replaceCert, supported.2.replaceCert⟩,
    consistent_replaceCert_iff supported.1 consistent⟩

/-- An older list keeps the agreement exactly when no other account has any of its
fingerprints. -/
theorem exact_extensibleUnserialize (supported : state.Supported casemap)
    (consistent : state.Consistent casemap) {certs : List (Str × ρ)}
    (distinct : (certs.map Prod.snd).Nodup)
    (free : ∀ cert ∈ certs, (state.clearCert casemap nc).heap cert.2 = none) :
    Exact casemap (state.extensibleUnserialize casemap nc certs)
      (∀ cert ∈ certs, state.FreeFor casemap nc cert.1) := by
  obtain ⟨sound, keyed⟩ := supported
  have cleared : (state.clearCert casemap nc).Consistent casemap :=
    consistent.clearCert sound keyed
  refine ⟨⟨(adds_foldl sound.clearCert cleared.2 distinct free).sound,
    keyed.clearCert.foldl_addCert certs⟩, ?_⟩
  rw [extensibleUnserialize, consistent_foldl_addCert_iff sound.clearCert cleared distinct free]
  refine forall₂_congr fun cert _ => forall_congr' fun other => ?_
  rw [holds_clearCert_iff sound]
  tauto

theorem exact_step {action : Action α ρ} (supported : state.Supported casemap)
    (consistent : state.Consistent casemap) (stepped : state.step casemap action = some next) :
    Exact casemap next (state.Keeps casemap action) := by
  cases action with
  | register nc =>
      obtain ⟨absent, is⟩ := Option.ite_none_right_eq_some.mp stepped
      cases is
      refine .of_same supported consistent rfl rfl (fun other => ?_) trivial
      rw [list_of_certs rfl]
      split
      · rename_i same
        rw [same, list, Option.isNone_iff_eq_none.mp absent]
        rfl
      · rfl
  | doAdd nc certfp max p =>
      obtain ⟨⟨_, free⟩, is⟩ := Option.ite_none_right_eq_some.mp stepped
      cases is
      split
      · rename_i allowed
        have added : Exact casemap (addCert casemap nc state (certfp, p))
            (state.FreeFor casemap nc certfp) :=
          exact_addCert supported consistent (Option.isNone_iff_eq_none.mp free)
        refine ⟨added.1, added.2.trans (iff_of_true (fun other holds => ?_) trivial)⟩
        have found := (consistent.1 certfp other).mpr holds
        rw [findAccountFromCert, certmap_of_addAllowed allowed] at found
        cases found
      · exact .of_same supported consistent rfl rfl (fun _ => rfl) trivial
  | eraseCert nc entry =>
      obtain ⟨_, is⟩ := Option.ite_none_right_eq_some.mp stepped
      cases is
      exact ⟨⟨supported.1.eraseCert, supported.2.eraseCert⟩,
        consistent_eraseCert_iff supported.1 consistent⟩
  | replaceCert nc oldentry newentry =>
      obtain ⟨_, is⟩ := Option.ite_none_right_eq_some.mp stepped
      cases is
      exact exact_replaceCert supported consistent oldentry newentry
  | serviceReplaceCert oldcert newcert =>
      cases Option.some.inj stepped
      rw [serviceReplaceCert, Keeps]
      split
      · rename_i absent
        exact .of_same supported consistent rfl rfl (fun _ => rfl)
          fun nc found => absurd (absent.symm.trans found) (Option.some_ne_none nc).symm
      · rename_i nc found
        have replaced : Exact casemap (state.replaceCert casemap nc oldcert newcert)
            (state.Replaceable casemap nc oldcert newcert) :=
          exact_replaceCert supported consistent oldcert newcert
        refine ⟨replaced.1, replaced.2.trans ⟨fun is other same => ?_, fun all => all nc found⟩⟩
        cases found.symm.trans same
        exact is
  | clearCert nc =>
      obtain ⟨_, is⟩ := Option.ite_none_right_eq_some.mp stepped
      cases is
      exact exact_clearCert supported consistent trivial
  | deleteAccount nc =>
      obtain ⟨_, is⟩ := Option.ite_none_right_eq_some.mp stepped
      cases is
      have cleared : Exact casemap (state.clearCert casemap nc) True :=
        exact_clearCert supported consistent trivial
      refine .of_same cleared.1 (cleared.2.mpr trivial) rfl rfl (fun other => ?_) trivial
      rw [list_clearCert, list, deleteAccount]
      dsimp only
      rw [Function.update_apply]
      split
      · rfl
      · rename_i foreign
        exact (list_clearCert other).trans (if_neg foreign)
  | load nc fingerprint p =>
      obtain ⟨free, is⟩ := Option.ite_none_right_eq_some.mp stepped
      cases is
      rw [Keeps]
      split
      · rename_i isAccount
        have added : Exact casemap (addCert casemap nc state (fingerprint, p))
            (state.FreeFor casemap nc fingerprint) :=
          exact_addCert supported consistent (Option.isNone_iff_eq_none.mp free)
        exact ⟨added.1, added.2.trans ⟨fun is _ => is, fun is => is isAccount⟩⟩
      · rename_i missing
        exact .of_same supported consistent rfl rfl (fun _ => rfl) fun isAccount =>
          absurd isAccount missing
  | reload nc fingerprint p =>
      obtain ⟨live, is⟩ := Option.ite_none_right_eq_some.mp stepped
      cases is
      rw [Keeps]
      split
      · rename_i isAccount
        obtain ⟨cert, found⟩ := Option.isSome_iff_exists.mp live
        refine ⟨⟨supported.1.setFingerprint, supported.2⟩,
          (consistent_setFingerprint_iff supported.1 consistent found).trans ⟨?_, ?_⟩⟩
        · intro kept _ other isOther
          cases found.symm.trans isOther
          exact kept
        · exact fun all => all isAccount cert found
      · rename_i missing
        exact .of_same supported consistent rfl rfl (fun _ => rfl) fun isAccount =>
          absurd isAccount missing
  | legacy nc certstr addresses =>
      obtain ⟨⟨_, distinct, same, free⟩, is⟩ := Option.ite_none_right_eq_some.mp stepped
      cases is
      rw [Keeps]
      split
      · rename_i isEmpty
        exact .of_same supported consistent rfl rfl (fun _ => rfl) fun notEmpty =>
          Bool.noConfusion (isEmpty.symm.trans notEmpty)
      · rename_i notEmpty
        have firsts : ((spaceTokens certstr).zip addresses).map Prod.fst = spaceTokens certstr :=
          List.map_fst_zip same.ge
        have seconds : ((spaceTokens certstr).zip addresses).map Prod.snd = addresses :=
          List.map_snd_zip same.le
        have loaded : Exact casemap
            (state.extensibleUnserialize casemap nc ((spaceTokens certstr).zip addresses))
            (∀ cert ∈ (spaceTokens certstr).zip addresses, state.FreeFor casemap nc cert.1) :=
          exact_extensibleUnserialize supported consistent (by rwa [seconds])
            fun cert mem => Option.isNone_iff_eq_none.mp
              (free cert.2 (seconds ▸ List.mem_map_of_mem mem))
        refine ⟨loaded.1, loaded.2.trans ⟨fun all _ token mem => ?_, fun all cert mem => ?_⟩⟩
        · rw [← firsts] at mem
          obtain ⟨cert, isIn, rfl⟩ := List.mem_map.mp mem
          exact all cert isIn
        · exact all (Bool.eq_false_iff.mpr notEmpty) cert.1 (firsts ▸ List.mem_map_of_mem mem)

/-- Along a run fingerprints lead to the accounts that have them exactly when every
operation meets its condition. -/
theorem always_consistent_iff (casemap : Casemap) (start : State α ρ)
    (supported : start.Supported casemap) (consistent : start.Consistent casemap)
    (actions : List (Action α ρ)) :
    Run.Always (step casemap) (Consistent casemap) start actions ↔
      Run.EachStep (step casemap) (Keeps casemap) start actions :=
  Run.always_iff_eachStep_of_kept (Supported casemap)
    (fun supported consistent _ stepped => (exact_step supported consistent stepped).1)
    (fun supported consistent stepped => (exact_step supported consistent stepped).2)
    supported consistent actions

/-- A network without accounts. -/
def nobody : State Nat Nat where
  heap := fun _ => none
  certs := fun _ => none
  certmap := fun _ => none

theorem supported_nobody : nobody.Supported .ascii :=
  ⟨⟨fun _ _ => iff_of_false (fun mem => nomatch mem) (fun ⟨_, found, _⟩ => nomatch found),
    fun _ => List.nodup_nil⟩, fun _ _ mapped => nomatch mapped⟩

theorem consistent_nobody : nobody.Consistent .ascii :=
  ⟨fun _ _ => iff_of_false (fun found => nomatch found) (fun ⟨_, mem, _⟩ => nomatch mem),
    fun _ _ mapped => nomatch mapped⟩

/-- A certificate is added and erased again. -/
def addErase : List (Action Nat Nat) :=
  [.register 0, .doAdd 0 (ascii "aa") 5 0, .eraseCert 0 (ascii "aa")]

theorem always_consistent_addErase :
    Run.Always (step .ascii) (Consistent .ascii) nobody addErase := by
  refine (always_consistent_iff .ascii nobody supported_nobody consistent_nobody _).mpr ?_
  rintro _ ⟨⟩
  refine ⟨trivial, ?_⟩
  rintro _ ⟨⟩
  refine ⟨trivial, ?_⟩
  rintro _ ⟨⟩
  refine ⟨?_, trivial⟩
  rintro _ ⟨⟩
  constructor
  · intro q mem different
    exact absurd (List.mem_singleton.mp mem) different
  · intro key mapped
    by_contra other
    exact nomatch (Function.update_of_ne other _ _).symm.trans mapped

/-- Another account replaces its certificate by one that is taken. -/
def replaceTaken : List (Action Nat Nat) :=
  [.register 0, .register 1, .doAdd 0 (ascii "aa") 5 0, .doAdd 1 (ascii "bb") 5 1,
    .serviceReplaceCert (ascii "bb") (ascii "aa")]

/-- The table follows the replacement although the first account still has the
fingerprint. -/
theorem not_always_consistent_replaceTaken :
    ¬ Run.Always (step .ascii) (Consistent .ascii) nobody replaceTaken := by
  intro always
  obtain ⟨final, reached⟩ :
      ∃ final, Run.run (step .ascii) nobody replaceTaken = some final := ⟨_, rfl⟩
  have consistent := always.of_run reached
  cases reached
  have first := (consistent.1 (ascii "aa") 0).mpr
    ⟨0, by decide, ⟨0, ascii "aa"⟩, rfl, rfl⟩
  exact absurd first (by decide)

end Anope.Cert.State
