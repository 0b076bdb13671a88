import Anope.Text.Base64
import Anope.Text.Match.Core

/-!
# What a token may execute

`CanExecute` of the RPC interface: the header gives a token, and the methods of the tokens that
compare equal to it are looked at in the order of the configuration.
-/

namespace Anope.Rpc

open Anope.Text
open Anope.Text.Base64
open Anope.Text.Match (globMatch)

/-- `RPC::Token`. -/
structure Token where
  methods : List Str
  token : Str
  tokenHash : Str
  deriving DecidableEq, Repr

/-- What is outside of the interface: the case map, and the encryption modules, of which `Compare`
is what they have in common. -/
structure Env where
  casemap : Casemap
  /-- `Service::FindService("Encryption::Provider", name)`. -/
  findProvider : Str → Option (Str → Str → Bool)

/-- `'~'`. -/
def tilde : UInt8 := 126

section Code

variable (env : Env)

/-- `CompareToken`. -/
def compareToken (token : Token) (rawtoken : Str) : Bool :=
  if token.tokenHash.isEmpty then token.token = rawtoken
  else
    match env.findProvider token.tokenHash with
    | none => false
    | some compare => compare token.token rawtoken

/-- The inner loop; `none` is its end without an answer.  The name of a method has no NUL, for
which alone the matcher could read past a mask. -/
def checkMethods (method : Str) : List Str → Option Bool
  | [] => none
  | glob :: methods =>
      if glob.head? = some tilde ∧ globMatch env.casemap method glob.tail = true then some false
      else if globMatch env.casemap method glob then some true
      else checkMethods method methods

/-- The outer loop. -/
def checkTokens (rawtoken method : Str) : List Token → Bool
  | [] => false
  | token :: tokens =>
      if compareToken env token rawtoken then
        match checkMethods env method token.methods with
        | some answer => answer
        | none => checkTokens rawtoken method tokens
      else checkTokens rawtoken method tokens

/-- `header.compare(0, 7, "Bearer ", 7) == 0`; `Anope::string::compare` is without case. -/
def hasBearer (header : Str) : Bool :=
  (env.casemap.ciStr header).take 7 = env.casemap.ciStr (ascii "Bearer ")

/-- `CanExecute`. -/
def canExecute (tokens : List Token) (header method : Str) : Bool :=
  if hasBearer env header then checkTokens env (b64Decode (header.drop 7)) method tokens
  else false

/-! ## What the tokens allow -/

/-- Whether a glob matches, by its rest when it is a negative one. -/
def applies (method glob : Str) : Bool :=
  globMatch env.casemap method (if glob.head? = some tilde then glob.tail else glob)

/-- The methods of the tokens that compare equal. -/
def methodsOf (tokens : List Token) (rawtoken : Str) : List Str :=
  (tokens.filter fun token => compareToken env token rawtoken).flatMap Token.methods

/-- The first glob that matches is not a negative one. -/
def Allows (tokens : List Token) (rawtoken method : Str) : Prop :=
  ∃ glob, (methodsOf env tokens rawtoken).find? (applies env method) = some glob ∧
    glob.head? ≠ some tilde

end Code

/-! ## The loops -/

section Proofs

variable {env : Env} {method : Str} {rawtoken : Str}

/-- A negative glob is only itself a mask for what starts with its mark. -/
theorem globMatch_tilde {casemap : Casemap}
    (tildeAlone : ∀ byte, casemap.tolower byte = casemap.tolower tilde → byte = tilde)
    (plain : method.head? ≠ some tilde) (mask : Str) :
    globMatch casemap method (tilde :: mask) = false := by
  have notStar : tilde ≠ Match.star := by decide
  have outcome : Match.matchMask casemap false method (tilde :: mask) = .ret false := by
    cases method with
    | nil =>
        obtain ⟨fuel, budget⟩ : ∃ fuel, ((tilde :: mask).length + 2) * (([] : Str).length + 2) =
            fuel + 1 := ⟨_, rfl⟩
        rw [Match.matchMask, Match.literalLoop, budget]
        simp [Match.scan, Match.finish, notStar]
    | cons string method =>
        have differs : casemap.tolower tilde ≠ casemap.tolower string :=
          fun same => plain (congrArg some (tildeAlone string same.symm))
        have rejects : Match.accepts casemap false tilde string = false := by
          rw [Match.accepts, Match.sameChar, if_neg Bool.false_ne_true, beq_false_of_ne differs]
          decide
        rw [Match.matchMask, Match.literalLoop, if_neg notStar, rejects]
        rfl
  rw [globMatch, outcome]
  decide

section Methods

variable (tildeAlone : ∀ byte, env.casemap.tolower byte = env.casemap.tolower tilde → byte = tilde)
  (plain : method.head? ≠ some tilde)

include tildeAlone plain in
/-- The inner loop stops at the first glob that matches. -/
theorem checkMethods_eq_find (methods : List Str) : checkMethods env method methods =
    (methods.find? (applies env method)).map fun glob => decide (glob.head? ≠ some tilde) := by
  induction methods with
  | nil => rfl
  | cons glob methods ih =>
      rw [checkMethods, ih]
      by_cases negative : glob.head? = some tilde
      · obtain ⟨mask, rfl⟩ : ∃ mask, glob = tilde :: mask := List.head?_eq_some_iff.mp negative
        rw [globMatch_tilde tildeAlone plain mask]
        cases isMatch : globMatch env.casemap method mask with
        | true => simp [applies, isMatch]
        | false => simp [applies, isMatch]
      · cases isMatch : globMatch env.casemap method glob with
        | true => simp [applies, negative, isMatch]
        | false => simp [applies, negative, isMatch]

include tildeAlone plain in
/-- The outer loop runs through the methods of the tokens that compare equal. -/
theorem checkTokens_eq_find (tokens : List Token) : checkTokens env rawtoken method tokens =
    (((methodsOf env tokens rawtoken).find? (applies env method)).map fun glob =>
      decide (glob.head? ≠ some tilde)).getD false := by
  induction tokens with
  | nil => rfl
  | cons token tokens ih =>
      rw [checkTokens, ih, checkMethods_eq_find tildeAlone plain]
      cases equal : compareToken env token rawtoken with
      | false => simp [methodsOf, equal]
      | true =>
          cases found : token.methods.find? (applies env method) with
          | none => simp [methodsOf, equal, List.find?_append, found]
          | some glob => simp [methodsOf, equal, List.find?_append, found]

include tildeAlone plain in
theorem checkTokens_iff (tokens : List Token) :
    checkTokens env rawtoken method tokens = true ↔ Allows env tokens rawtoken method := by
  rw [checkTokens_eq_find tildeAlone plain, Allows]
  cases (methodsOf env tokens rawtoken).find? (applies env method) with
  | none => simp
  | some glob => simp

end Methods

/-- The scheme is what comes first, in upper or lower case. -/
theorem hasBearer_iff (header : Str) : hasBearer env header = true ↔
    ∃ scheme text, header = scheme ++ text ∧ scheme.length = 7 ∧
      env.casemap.equalsCi scheme (ascii "Bearer ") = true := by
  have seven : (env.casemap.ciStr (ascii "Bearer ")).length = 7 := by
    rw [Casemap.ciStr, List.length_map]
    decide +kernel
  have prefix_of : ∀ scheme text : Str, scheme.length = 7 →
      ((env.casemap.ciStr (scheme ++ text)).take 7 = env.casemap.ciStr (ascii "Bearer ") ↔
        env.casemap.ciStr scheme = env.casemap.ciStr (ascii "Bearer ")) := by
    intro scheme text length
    rw [Casemap.ciStr, List.takeWhile_append]
    split
    · rename_i whole
      have noNul : scheme.takeWhile (· ≠ 0) = scheme :=
        (List.takeWhile_prefix _).eq_of_length whole
      have upper : env.casemap.ciStr scheme = scheme.map env.casemap.toupper := by
        rw [Casemap.ciStr, noNul]
      rw [List.map_append, List.take_left' (by rw [List.length_map, length]), upper]
    · have short : (env.casemap.ciStr scheme).length ≤ 7 := by
        rw [Casemap.ciStr, List.length_map, ← length]
        exact (List.takeWhile_sublist _).length_le
      exact iff_of_eq (congrArg (· = _) (List.take_of_length_le short))
  rw [hasBearer, decide_eq_true_iff]
  constructor
  · intro isBearer
    have length : (header.take 7).length = 7 := by
      have enough := congrArg List.length isBearer
      rw [seven, List.length_take, Casemap.ciStr, List.length_map] at enough
      have shorter := (List.takeWhile_sublist (· ≠ 0) (l := header)).length_le
      rw [List.length_take]
      omega
    refine ⟨header.take 7, header.drop 7, (List.take_append_drop 7 header).symm, length, ?_⟩
    rw [← List.take_append_drop 7 header] at isBearer
    rw [Casemap.equalsCi_iff]
    exact (prefix_of _ _ length).mp isBearer
  · rintro ⟨scheme, text, rfl, length, same⟩
    rw [Casemap.equalsCi_iff] at same
    exact (prefix_of scheme text length).mpr same

/-- Tokens that do not compare equal do not change what is allowed. -/
theorem checkTokens_eq_of_filter {tokens tokens' : List Token}
    (same : (tokens'.filter fun token => compareToken env token rawtoken) =
      tokens.filter fun token => compareToken env token rawtoken) :
    checkTokens env rawtoken method tokens' = checkTokens env rawtoken method tokens := by
  have only : ∀ tokens : List Token, checkTokens env rawtoken method tokens =
      checkTokens env rawtoken method
        (tokens.filter fun token => compareToken env token rawtoken) := by
    intro tokens
    induction tokens with
    | nil => rfl
    | cons token tokens ih =>
        cases equal : compareToken env token rawtoken with
        | false => simp [checkTokens, equal, ih]
        | true => simp [checkTokens, equal, ih]
  rw [only tokens', same, ← only tokens]

/-- What is not base64 is no token. -/
theorem isSome_of_compareToken {token : Token} {text : Str} (nonempty : token.token ≠ [])
    (isPlain : token.tokenHash = []) (equal : compareToken env token (b64Decode text) = true) :
    (decodeLoop text 0 []).isSome = true := by
  rw [compareToken, isPlain, List.isEmpty_nil, if_pos rfl, decide_eq_true_iff] at equal
  cases decoded : decodeLoop text 0 [] with
  | some target => rfl
  | none =>
      rw [b64Decode, decoded] at equal
      exact absurd equal nonempty

theorem canExecute_append (tokens : List Token) {scheme : Str} (text : Str)
    (length : scheme.length = 7)
    (isScheme : env.casemap.equalsCi scheme (ascii "Bearer ") = true) :
    canExecute env tokens (scheme ++ text) method =
      checkTokens env (b64Decode text) method tokens := by
  rw [canExecute, if_pos ((hasBearer_iff _).mpr ⟨scheme, text, rfl, length, isScheme⟩),
    List.drop_left' length]

theorem exists_token_of_allows {tokens : List Token} (allows : Allows env tokens rawtoken method) :
    ∃ token ∈ tokens, compareToken env token rawtoken = true := by
  obtain ⟨glob, found, _⟩ := allows
  obtain ⟨token, mem, _⟩ := List.mem_flatMap.mp (List.mem_of_find?_eq_some found)
  exact ⟨token, List.mem_filter.mp mem⟩

end Proofs

/-- The answer is the method list of the tokens that the header gives.  The case maps of the
program fold no other byte with the mark of a negative glob. -/
theorem canExecute_iff_allows (env : Env)
    (tildeAlone : ∀ byte, env.casemap.tolower byte = env.casemap.tolower tilde → byte = tilde)
    (tokens : List Token) (nonempty : ∀ token ∈ tokens, token.token ≠ []) (header method : Str)
    (plain : method.head? ≠ some tilde) :
    (canExecute env tokens header method = true ↔
      ∃ scheme text, header = scheme ++ text ∧ scheme.length = 7 ∧
        env.casemap.equalsCi scheme (ascii "Bearer ") = true ∧
        (∃ token ∈ tokens, compareToken env token (b64Decode text) = true) ∧
        Allows env tokens (b64Decode text) method) ∧
      (∀ token ∈ tokens, token.tokenHash = [] → ∀ text,
        compareToken env token (b64Decode text) = true → (decodeLoop text 0 []).isSome = true) ∧
      (∀ tokens' : List Token,
        (tokens'.filter fun token => compareToken env token (b64Decode (header.drop 7))) =
          (tokens.filter fun token => compareToken env token (b64Decode (header.drop 7))) →
        canExecute env tokens' header method = canExecute env tokens header method) ∧
      ∀ text, 0 ∉ text →
        (canExecute env tokens (ascii "Bearer " ++ b64Encode text) method = true ↔
          Allows env tokens text method) := by
  refine ⟨?_, ?_, ?_, ?_⟩
  · constructor
    · intro executes
      rw [canExecute] at executes
      split at executes
      · rename_i isBearer
        obtain ⟨scheme, text, rfl, length, isScheme⟩ := (hasBearer_iff header).mp isBearer
        rw [List.drop_left' length, checkTokens_iff tildeAlone plain] at executes
        exact ⟨scheme, text, rfl, length, isScheme, exists_token_of_allows executes, executes⟩
      · cases executes
    · rintro ⟨scheme, text, rfl, length, isScheme, _, allows⟩
      rw [canExecute_append tokens text length isScheme, checkTokens_iff tildeAlone plain]
      exact allows
  · exact fun token mem isPlain text equal =>
      isSome_of_compareToken (nonempty token mem) isPlain equal
  · intro tokens' same
    rw [canExecute, canExecute, checkTokens_eq_of_filter same]
  · intro text noNul
    have isScheme : env.casemap.equalsCi (ascii "Bearer ") (ascii "Bearer ") = true := by
      rw [Casemap.equalsCi_iff]
    rw [canExecute_append tokens _ (by decide) isScheme, b64Decode_b64Encode noNul,
      checkTokens_iff tildeAlone plain]

/-- The `ascii` case map, and no encryption module. -/
def asciiEnv : Env where
  casemap := Casemap.ascii
  findProvider _ := none

/-- A token `t` for every method but those whose name starts with `a`. -/
def oneToken : List Token :=
  [⟨[ascii "~a*", ascii "*"], ascii "t", []⟩]

theorem canExecute_iff_allows_oneToken :
    canExecute asciiEnv oneToken (ascii "Bearer " ++ b64Encode (ascii "t")) (ascii "rehash") =
      true :=
  ((canExecute_iff_allows asciiEnv (Library.Bits.forall_byte (by decide +kernel)) oneToken
    (by decide) [] (ascii "rehash") (by decide)).2.2.2 (ascii "t") (by decide)).mpr
      ⟨ascii "*", by decide +kernel, by decide⟩

/-- The scheme may be written in lower case. -/
theorem not_canExecute_iff_bearer :
    ¬ ∀ header, canExecute asciiEnv oneToken header (ascii "rehash") = true ↔
      ∃ text, header = ascii "Bearer " ++ text ∧
        (∃ token ∈ oneToken, compareToken asciiEnv token (b64Decode text) = true) ∧
        Allows asciiEnv oneToken (b64Decode text) (ascii "rehash") := by
  intro exactly
  obtain ⟨text, same, _⟩ := (exactly (ascii "bearer dA==")).mp (by decide +kernel)
  have isPrefix : ascii "Bearer " <+: ascii "bearer dA==" := ⟨text, same.symm⟩
  exact absurd isPrefix (by decide)

end Anope.Rpc
