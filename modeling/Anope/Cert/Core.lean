import Anope.Library.Run
import Anope.Library.Split
import Anope.Text.Casemap

/-!
# Certificate fingerprints of accounts

`ns_cert` keeps the certificates of an account in a list that is searched with case,
and all certificates in one table by fingerprint without case.  A certificate is a
heap object, so that the table can name one that was deleted.
-/

namespace Anope.Cert

open Anope.Text

/-- `NSCertInfo`. -/
structure NSCertInfo (α : Type) where
  account : α
  fingerprint : Str

/-- The accounts, their certificates and `certmap`, by keys without case. -/
structure State (α ρ : Type) where
  heap : ρ → Option (NSCertInfo α)
  /-- The lists of the accounts that exist. -/
  certs : α → Option (List ρ)
  certmap : Str → Option ρ

namespace State

variable {α ρ : Type} [DecidableEq α] [DecidableEq ρ]

/-- The certificate list of an account. -/
def list (state : State α ρ) (nc : α) : List ρ :=
  (state.certs nc).getD []

/-- `CertServiceImpl::FindAccountFromCert`. -/
def findAccountFromCert (casemap : Casemap) (state : State α ρ) (cert : Str) : Option α :=
  (state.certmap (casemap.ciStr cert)).bind fun p => (state.heap p).map NSCertInfo.account

/-- `find_if` with the comparison of `FindCert`. -/
def findIf (state : State α ρ) (nc : α) (entry : Str) : Option ρ :=
  (state.list nc).find? fun p => (state.heap p).any fun cert => cert.fingerprint == entry

/-- `certmap.erase`. -/
def eraseKey (casemap : Casemap) (state : State α ρ) (entry : Str) : State α ρ :=
  { state with certmap := Function.update state.certmap (casemap.ciStr entry) none }

/-- A new certificate at the end of the list, and in the table. -/
def addCert (casemap : Casemap) (nc : α) (state : State α ρ) (cert : Str × ρ) : State α ρ where
  heap := Function.update state.heap cert.2 (some ⟨nc, cert.1⟩)
  certs := Function.update state.certs nc (some (state.list nc ++ [cert.2]))
  certmap := Function.update state.certmap (casemap.ciStr cert.1) (some cert.2)

/-- `delete` of a certificate and its removal from the list. -/
def delete (state : State α ρ) (nc : α) (p : ρ) : State α ρ :=
  { state with
    heap := Function.update state.heap p none
    certs := Function.update state.certs nc (some ((state.list nc).erase p)) }

/-- `EraseCert`. -/
def eraseCert (casemap : Casemap) (state : State α ρ) (nc : α) (entry : Str) : State α ρ :=
  match state.findIf nc entry with
  | none => state
  | some p => (state.eraseKey casemap entry).delete nc p

/-- A change of the fingerprint of a certificate. -/
def setFingerprint (state : State α ρ) (p : ρ) (entry : Str) : State α ρ :=
  { state with
    heap := Function.update state.heap p
      ((state.heap p).map fun cert => { cert with fingerprint := entry }) }

/-- `NSCertListImpl::ReplaceCert`. -/
def replaceCert (casemap : Casemap) (state : State α ρ) (nc : α) (oldentry newentry : Str) :
    State α ρ :=
  match state.findIf nc oldentry with
  | none => state
  | some p =>
      let erased := state.eraseKey casemap oldentry
      match state.findIf nc newentry with
      | some _ => erased.delete nc p
      | none =>
          let renamed := erased.setFingerprint p newentry
          { renamed with
            certmap := Function.update renamed.certmap (casemap.ciStr newentry) (some p) }

/-- `CertServiceImpl::ReplaceCert`. -/
def serviceReplaceCert (casemap : Casemap) (state : State α ρ) (oldcert newcert : Str) :
    State α ρ :=
  match state.findAccountFromCert casemap oldcert with
  | none => state
  | some nc => state.replaceCert casemap nc oldcert newcert

/-- One turn of the loop of `ClearCert`. -/
def clearOne (casemap : Casemap) (state : State α ρ) (p : ρ) : State α ρ :=
  match state.heap p with
  | none => state
  | some cert =>
      { state.eraseKey casemap cert.fingerprint with
        heap := Function.update state.heap p none }

/-- `ClearCert`. -/
def clearCert (casemap : Casemap) (state : State α ρ) (nc : α) : State α ρ :=
  let cleared := (state.list nc).foldl (clearOne casemap) state
  { cleared with certs := Function.update cleared.certs nc (some []) }

/-- The destructors of an account. -/
def deleteAccount (casemap : Casemap) (state : State α ρ) (nc : α) : State α ρ :=
  let cleared := state.clearCert casemap nc
  { cleared with certs := Function.update cleared.certs nc none }

/-- The list of fingerprints that older databases store, after the list was cleared. -/
def extensibleUnserialize (casemap : Casemap) (state : State α ρ) (nc : α)
    (certs : List (Str × ρ)) : State α ρ :=
  certs.foldl (addCert casemap nc) (state.clearCert casemap nc)

/-- The tokens of a `spacesepstream`. -/
def spaceTokens (line : Str) : List Str :=
  Library.Split.tokens 32 line

/-- The operations on certificates; new objects are given their addresses. -/
inductive Action (α ρ : Type) where
  /-- A new account. -/
  | register (nc : α)
  /-- `CERT ADD`, given the configured maximum. -/
  | doAdd (nc : α) (certfp : Str) (max : Nat) (p : ρ)
  | eraseCert (nc : α) (entry : Str)
  | replaceCert (nc : α) (oldentry newentry : Str)
  | serviceReplaceCert (oldcert newcert : Str)
  | clearCert (nc : α)
  | deleteAccount (nc : α)
  /-- `Unserialize` of a row without an object. -/
  | load (nc : α) (fingerprint : Str) (p : ρ)
  /-- `Unserialize` of the row of a certificate. -/
  | reload (nc : α) (fingerprint : Str) (p : ρ)
  /-- `ExtensibleUnserialize` of an account, given the addresses of new objects. -/
  | legacy (nc : α) (certstr : Str) (addresses : List ρ)

/-- Whether `CERT ADD` adds a fingerprint. -/
def addAllowed (casemap : Casemap) (state : State α ρ) (nc : α) (certfp : Str) (max : Nat) : Bool :=
  !certfp.isEmpty && (state.list nc).length < max && (state.findIf nc certfp).isNone &&
    (state.certmap (casemap.ciStr certfp)).isNone

/-- A transition.  Only accounts that exist have operations, and new objects get
addresses that are not in use. -/
def step (casemap : Casemap) (state : State α ρ) : Action α ρ → Option (State α ρ)
  | .register nc =>
      if (state.certs nc).isNone then
        some { state with certs := Function.update state.certs nc (some []) }
      else none
  | .doAdd nc certfp max p =>
      if (state.certs nc).isSome ∧ (state.heap p).isNone then
        some (if state.addAllowed casemap nc certfp max then
          addCert casemap nc state (certfp, p) else state)
      else none
  | .eraseCert nc entry =>
      if (state.certs nc).isSome then some (state.eraseCert casemap nc entry) else none
  | .replaceCert nc oldentry newentry =>
      if (state.certs nc).isSome then some (state.replaceCert casemap nc oldentry newentry)
      else none
  | .serviceReplaceCert oldcert newcert => some (state.serviceReplaceCert casemap oldcert newcert)
  | .clearCert nc => if (state.certs nc).isSome then some (state.clearCert casemap nc) else none
  | .deleteAccount nc =>
      if (state.certs nc).isSome then some (state.deleteAccount casemap nc) else none
  | .load nc fingerprint p =>
      -- the row of a missing account is passed over
      if (state.heap p).isNone then
        some (if (state.certs nc).isSome then addCert casemap nc state (fingerprint, p) else state)
      else none
  | .reload nc fingerprint p =>
      -- the account of the certificate stays as it was
      if (state.heap p).isSome then
        some (if (state.certs nc).isSome then state.setFingerprint p fingerprint else state)
      else none
  | .legacy nc certstr addresses =>
      if (state.certs nc).isSome ∧ addresses.Nodup ∧
          addresses.length = (spaceTokens certstr).length ∧
          ∀ p ∈ addresses, ((state.clearCert casemap nc).heap p).isNone then
        some (if certstr.isEmpty then state
          else state.extensibleUnserialize casemap nc ((spaceTokens certstr).zip addresses))
      else none

end State

end Anope.Cert
