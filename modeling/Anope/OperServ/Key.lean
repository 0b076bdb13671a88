import Anope.Library.Keyed
import Anope.OperServ.Core

/-!
# Keys of the session table

The part of an address that the operations on ranges look at, for the prefix
lengths of one configuration.  Where it is defined, `find` and `alter` are the
operations of a list with keys.
-/

namespace Anope.OperServ

open Library Library.Keyed Anope.Net
open Library.Bits (highMask)

/-- What decides the session of an address. -/
inductive Key where
  /-- The word `s_addr` under the mask. -/
  | inet (word : Nat)
  /-- The whole bytes and the masked byte behind them. -/
  | inet6 (bytes : List UInt8) (rest : UInt8)
  deriving DecidableEq, Repr

namespace Config

variable (cfg : Config)

/-- The key of an address, where the operations on ranges are defined. -/
def key : Sockaddrs → Option Key
  | .inet ip =>
      if 0 < cfg.ipv4Cidr then some (.inet (sAddr cfg.order ip &&& (2 ^ cfg.ipv4Cidr - 1)))
      else none
  | .inet6 ip =>
      ip.toList[cfg.ipv6Cidr / 8]?.map fun byte =>
        .inet6 (ip.toList.take (cfg.ipv6Cidr / 8)) (byte &&& highMask (cfg.ipv6Cidr % 8))
  | .unspec | .unix _ => none

variable {cfg}

@[simp]
theorem addr_cidr (ip : Sockaddrs) : (cfg.cidr ip).addr = ip :=
  rfl

theorem valid_cidr (ip : Sockaddrs) : (cfg.cidr ip).valid = ip.valid :=
  rfl

theorem cidrLen_inet (ip : Addr4) : (cfg.cidr (.inet ip)).cidrLen.toNat = cfg.ipv4Cidr := by
  have bound := cfg.ipv4Cidr_le
  change (UInt8.ofNat cfg.ipv4Cidr).toUInt16.toNat = _
  rw [UInt8.toNat_toUInt16, UInt8.toNat_ofNat']
  exact Nat.mod_eq_of_lt (by omega)

theorem cidrLen_inet6 (ip : Addr6) : (cfg.cidr (.inet6 ip)).cidrLen.toNat = cfg.ipv6Cidr := by
  have bound := cfg.ipv6Cidr_le
  change (UInt8.ofNat cfg.ipv6Cidr).toUInt16.toNat = _
  rw [UInt8.toNat_toUInt16, UInt8.toNat_ofNat']
  exact Nat.mod_eq_of_lt (by omega)

theorem key_inet {ip : Addr4} {k : Key} (is : cfg.key (.inet ip) = some k) :
    0 < cfg.ipv4Cidr ∧ k = .inet (sAddr cfg.order ip &&& (2 ^ cfg.ipv4Cidr - 1)) := by
  rw [key] at is
  split at is
  · cases is
    exact ⟨‹_›, rfl⟩
  · cases is

theorem key_inet6 {ip : Addr6} {k : Key} (is : cfg.key (.inet6 ip) = some k) :
    ∃ inside : cfg.ipv6Cidr / 8 < ip.toList.length,
      k = .inet6 (ip.toList.take (cfg.ipv6Cidr / 8))
        (ip.toList[cfg.ipv6Cidr / 8] &&& highMask (cfg.ipv6Cidr % 8)) := by
  rcases Option.map_eq_some_iff.mp is with ⟨byte, at_, rfl⟩
  rcases List.getElem?_eq_some_iff.mp at_ with ⟨inside, rfl⟩
  exact ⟨inside, rfl⟩

theorem ipv6Cidr_lt {ip : Addr6} (inside : cfg.ipv6Cidr / 8 < ip.toList.length) :
    cfg.ipv6Cidr < 128 := by
  rw [Vector.length_toList] at inside
  omega

theorem inet_eq_ok (positive : 0 < cfg.ipv4Cidr) (ip otherIp : Addr4) :
    (cfg.cidr (.inet ip)).less cfg.order (cfg.cidr (.inet otherIp)) =
        .ok (decide (sAddr cfg.order ip &&& (2 ^ cfg.ipv4Cidr - 1) <
          sAddr cfg.order otherIp &&& (2 ^ cfg.ipv4Cidr - 1))) ∧
      (cfg.cidr (.inet ip)).hash cfg.order =
        .ok (sAddr cfg.order ip &&& (2 ^ cfg.ipv4Cidr - 1)) :=
  Cidr.inet_eq_ok positive cfg.ipv4Cidr_le rfl rfl (cidrLen_inet ip)

/-- Equality of IPv6 ranges is equality of their keys. -/
theorem equal_inet6 {ip otherIp : Addr6} {k l : Key} (isK : cfg.key (.inet6 ip) = some k)
    (isL : cfg.key (.inet6 otherIp) = some l) :
    (cfg.cidr (.inet6 ip)).equal cfg.order (cfg.cidr (.inet6 otherIp)) =
      .ok (decide (k = l)) := by
  rcases key_inet6 isK with ⟨inIp, rfl⟩
  rcases key_inet6 isL with ⟨inOther, rfl⟩
  have short := ipv6Cidr_lt inIp
  have agree : KeysAgree cfg.order (cfg.cidr (.inet6 ip)) (cfg.cidr (.inet6 otherIp)) :=
    keysAgree_inet6 short rfl rfl (cidrLen_inet6 ip) (cidrLen_inet6 otherIp)
  rcases agree.equal_iff_match with ⟨same, equal, iff⟩
  rw [equal]
  rw [Cidr.matchAddr_iff, cidrLen_inet6, Nat.mod_eq_of_lt (by omega), addr_cidr, addr_cidr,
    sharesPrefix_inet6_iff ip otherIp short inIp inOther] at iff
  congr 1
  rw [Bool.eq_iff_iff, iff, decide_eq_true_iff, Key.inet6.injEq]

/-- Addresses with keys have comparable ranges, equal exactly when the keys
are. -/
theorem equal_cidr {x y : Sockaddrs} {k l : Key} (isK : cfg.key x = some k)
    (isL : cfg.key y = some l) :
    (cfg.cidr x).equal cfg.order (cfg.cidr y) = .ok (decide (k = l)) := by
  cases x with
  | unspec | unix => cases isK
  | inet ip =>
      rcases key_inet isK with ⟨positive, rfl⟩
      cases y with
      | unspec | unix => cases isL
      | inet otherIp =>
          rcases key_inet isL with ⟨_, rfl⟩
          rw [Cidr.equal_eq_ok (inet_eq_ok positive ip otherIp).1
            (inet_eq_ok positive otherIp ip).1]
          congr 1
          rw [Bool.eq_iff_iff, Bool.and_eq_true, Bool.not_eq_true', Bool.not_eq_true',
            decide_eq_false_iff_not, decide_eq_false_iff_not, decide_eq_true_iff,
            Key.inet.injEq]
          omega
      | inet6 otherIp =>
          rcases key_inet6 isL with ⟨_, rfl⟩
          rfl
  | inet6 ip =>
      cases y with
      | unspec | unix => cases isL
      | inet otherIp =>
          rcases key_inet6 isK with ⟨_, rfl⟩
          rcases key_inet isL with ⟨_, rfl⟩
          rfl
      | inet6 otherIp => exact equal_inet6 isK isL

/-- Where the keys of a family agree with matching, an address is in the range of
another one of the family exactly if their keys are equal. -/
theorem matchAddr_iff_of_family {family : Family} {x y : Sockaddrs} {k l : Key}
    (length : KeyLength cfg.order family (cfg.cidr x).cidrLen.toNat)
    (isX : x.family = some family) (isY : y.family = some family)
    (sameLength : (cfg.cidr y).cidrLen = (cfg.cidr x).cidrLen) (isK : cfg.key x = some k)
    (isL : cfg.key y = some l) : (cfg.cidr x).matchAddr y = true ↔ k = l := by
  have agreeFor := (keysAgreeFor_iff cfg.order family _).mpr length
  have agree := agreeFor (cfg.cidr x) (cfg.cidr y) isX isY rfl sameLength
  rcases agree.equal_iff_match with ⟨same, equal, iff⟩
  rw [equal_cidr isK isL, Except.ok.injEq] at equal
  rw [addr_cidr] at iff
  rw [← iff, ← equal, decide_eq_true_iff]

/-- Addresses of different families are in no range of each other. -/
theorem not_matchAddr_of_family {x y : Sockaddrs} (different : x.family ≠ y.family) :
    ¬(cfg.cidr x).matchAddr y = true := by
  rw [Cidr.matchAddr_iff]
  rintro ⟨family, isX, isY, _⟩
  rw [addr_cidr] at isX
  exact different (isX.trans isY.symm)

/-- Where the keys agree with matching, an address is in the range of another
one exactly if their keys are equal. -/
theorem matchAddr_iff (inet : KeyLength cfg.order .inet cfg.ipv4Cidr)
    (inet6 : KeyLength cfg.order .inet6 cfg.ipv6Cidr) {x y : Sockaddrs} {k l : Key}
    (isK : cfg.key x = some k) (isL : cfg.key y = some l) :
    (cfg.cidr x).matchAddr y = true ↔ k = l := by
  cases x with
  | unspec | unix => cases isK
  | inet ip =>
      cases y with
      | unspec | unix => cases isL
      | inet otherIp =>
          rw [← cidrLen_inet ip] at inet
          exact matchAddr_iff_of_family inet rfl rfl rfl isK isL
      | inet6 otherIp =>
          rcases key_inet isK with ⟨_, rfl⟩
          rcases key_inet6 isL with ⟨_, rfl⟩
          exact iff_of_false (not_matchAddr_of_family (fun same => nomatch same))
            fun same => nomatch same
  | inet6 ip =>
      cases y with
      | unspec | unix => cases isL
      | inet otherIp =>
          rcases key_inet6 isK with ⟨_, rfl⟩
          rcases key_inet isL with ⟨_, rfl⟩
          exact iff_of_false (not_matchAddr_of_family (fun same => nomatch same))
            fun same => nomatch same
      | inet6 otherIp =>
          rw [← cidrLen_inet6 ip] at inet6
          exact matchAddr_iff_of_family inet6 rfl rfl rfl isK isL

/-- An address with a key has a hash. -/
theorem exists_hash {x : Sockaddrs} {k : Key} (isK : cfg.key x = some k) :
    ∃ h, (cfg.cidr x).hash cfg.order = .ok h := by
  cases x with
  | unspec | unix => cases isK
  | inet ip =>
      exact ⟨_, (inet_eq_ok (key_inet isK).1 ip ip).2⟩
  | inet6 ip =>
      have agree : KeysAgree cfg.order (cfg.cidr (.inet6 ip)) (cfg.cidr (.inet6 ip)) :=
        keysAgree_inet6 (ipv6Cidr_lt (key_inet6 isK).1) rfl rfl (cidrLen_inet6 ip)
          (cidrLen_inet6 ip)
      have equal := equal_cidr isK isK
      rw [decide_eq_true rfl] at equal
      rcases agree.hash_eq equal with ⟨h, hashed, _⟩
      exact ⟨h, hashed⟩

/-- Ranges with one key have one hash. -/
theorem hash_cidr {x y : Sockaddrs} {k : Key} (isX : cfg.key x = some k)
    (isY : cfg.key y = some k) :
    (cfg.cidr x).hash cfg.order = (cfg.cidr y).hash cfg.order := by
  cases x with
  | unspec | unix => cases isX
  | inet ip =>
      rcases key_inet isX with ⟨positive, rfl⟩
      cases y with
      | unspec | unix => cases isY
      | inet otherIp =>
          have words := Key.inet.inj (key_inet isY).2
          rw [(inet_eq_ok positive ip ip).2, (inet_eq_ok positive otherIp otherIp).2, words]
      | inet6 otherIp => cases (key_inet6 isY).2
  | inet6 ip =>
      cases y with
      | unspec | unix => cases isY
      | inet otherIp =>
          rcases key_inet6 isX with ⟨_, rfl⟩
          cases (key_inet isY).2
      | inet6 otherIp =>
          have agree : KeysAgree cfg.order (cfg.cidr (.inet6 ip)) (cfg.cidr (.inet6 otherIp)) :=
            keysAgree_inet6 (ipv6Cidr_lt (key_inet6 isX).1) rfl rfl (cidrLen_inet6 ip)
              (cidrLen_inet6 otherIp)
          have equal := equal_cidr isX isY
          rw [decide_eq_true rfl] at equal
          rcases agree.hash_eq equal with ⟨h, hashed, otherHashed⟩
          rw [hashed, otherHashed]

/-- An address without a key has no hash. -/
theorem hash_eq_error {x : Sockaddrs} (noKey : cfg.key x = none) :
    ∃ fault, (cfg.cidr x).hash cfg.order = .error fault := by
  cases x with
  | unspec | unix => exact ⟨_, rfl⟩
  | inet ip =>
      rw [key] at noKey
      split at noKey
      · cases noKey
      · refine ⟨.undefined, ?_⟩
        have undefined := @wordMask_eq_undefined cfg.ipv4Cidr (by omega)
        simp only [Cidr.hash, addr_cidr, cidrLen_inet, undefined]
        rfl
  | inet6 ip =>
      have outside := List.getElem?_eq_none_iff.mp (Option.map_eq_none_iff.mp noKey)
      have bound := cfg.ipv6Cidr_le
      have whole : cfg.ipv6Cidr / 8 ≤ ip.toList.length := by
        rw [Vector.length_toList]
        omega
      rcases Cidr.hashBytes_eq_ok whole with ⟨h, hashed⟩
      refine ⟨.undefined, ?_⟩
      simp only [Cidr.hash, addr_cidr, cidrLen_inet6, hashed ip.toList rfl,
        readByte_eq_undefined outside]
      rfl

/-- The addresses of users have keys where the lengths are workable. -/
theorem workable_iff {u : User} (valid : u.ip.valid = true) :
    cfg.Workable u.ip ↔ ∃ k, cfg.key u.ip = some k := by
  rcases u with ⟨ip, notUnix, ulined⟩
  cases ip with
  | unspec => cases valid
  | unix path => exact absurd rfl (notUnix path)
  | inet ip =>
      rw [key, Workable]
      constructor
      · rintro ⟨positive, _⟩
        rw [if_pos (positive rfl)]
        exact ⟨_, rfl⟩
      · rintro ⟨k, isK⟩
        exact ⟨fun _ => (key_inet isK).1, fun other => nomatch other⟩
  | inet6 ip =>
      rw [Workable]
      constructor
      · rintro ⟨_, short⟩
        have inside : cfg.ipv6Cidr / 8 < ip.toList.length := by
          have bound := short rfl
          rw [Vector.length_toList]
          omega
        exact ⟨_, by rw [key, List.getElem?_eq_getElem inside]; rfl⟩
      · rintro ⟨k, isK⟩
        exact ⟨(fun other => nomatch other), fun _ => ipv6Cidr_lt (key_inet6 isK).1⟩

/-- Nothing is found for a range without a hash. -/
theorem find_eq_error {sessions : SessionMap Session} {range : Cidr} {fault : Fault}
    (undefined : range.hash cfg.order = .error fault) :
    sessions.find cfg.order range = .error fault := by
  cases sessions with
  | nil => rw [SessionMap.find, undefined]; rfl
  | cons entry sessions => rw [SessionMap.find, undefined]; rfl

/-! ## The table as a list with keys -/

variable (cfg) in
/-- The key of an element. -/
def entryKey (entry : Cidr × Session) : Option Key :=
  cfg.key entry.1.addr

variable (cfg) in
/-- The elements that the module makes: their ranges are those of addresses with
keys. -/
def Stored (entry : Cidr × Session) : Prop :=
  entry.1 = cfg.cidr entry.1.addr ∧ ∃ k, cfg.entryKey entry = some k

variable (cfg) in
/-- A change of the session of an address as a change of its element. -/
def onEntry (x : Sockaddrs) (change : Option Session → Option Session)
    (found : Option (Cidr × Session)) : Option (Cidr × Session) :=
  (change (found.map Prod.snd)).map fun session =>
    ((found.map Prod.fst).getD (cfg.cidr x), session)

variable {sessions : SessionMap Session} {x : Sockaddrs} {k : Key}
  {change : Option Session → Option Session}

theorem stored_cidr (isK : cfg.key x = some k) (session : Session) :
    cfg.Stored (cfg.cidr x, session) :=
  ⟨rfl, k, isK⟩

/-- Whether an element is the one of an address, as the table decides it. -/
theorem entry_eq {entry : Cidr × Session} (stored : cfg.Stored entry)
    (isK : cfg.key x = some k) :
    ∃ h storedHash, (cfg.cidr x).hash cfg.order = .ok h ∧
      entry.1.hash cfg.order = .ok storedHash ∧
      entry.1.equal cfg.order (cfg.cidr x) = .ok (decide (cfg.entryKey entry = some k)) ∧
      (cfg.entryKey entry = some k → storedHash = h) := by
  rcases stored with ⟨range, other, isOther⟩
  have isEntry : cfg.key entry.1.addr = some other := isOther
  rcases exists_hash isK with ⟨h, hashed⟩
  rcases exists_hash isEntry with ⟨storedHash, storedHashed⟩
  refine ⟨h, storedHash, hashed, range ▸ storedHashed, ?_, fun same => ?_⟩
  · rw [range, equal_cidr isEntry isK, isOther]
    simp only [Option.some.injEq]
  · have sameHash := hash_cidr same isK
    rw [hashed, storedHashed] at sameHash
    exact Except.ok.inj sameHash

/-- `find` finds the element with the key of the address. -/
theorem find_eq (stored : ∀ entry ∈ sessions, cfg.Stored entry) (isK : cfg.key x = some k) :
    SessionMap.find cfg.order sessions (cfg.cidr x) =
      .ok ((find cfg.entryKey (some k) sessions).map Prod.snd) := by
  induction sessions with
  | nil =>
      rcases exists_hash isK with ⟨h, hashed⟩
      rw [SessionMap.find, hashed]
      rfl
  | cons entry sessions ih =>
      have rest := ih fun other mem => stored other (List.mem_cons_of_mem entry mem)
      rcases entry_eq (stored entry List.mem_cons_self) isK with
        ⟨h, storedHash, hashed, storedHashed, equal, sameHash⟩
      rcases entry with ⟨range, session⟩
      simp only [SessionMap.find, hashed, storedHashed, equal, rest, Except.bind, Bind.bind]
      by_cases same : cfg.entryKey (range, session) = some k
      · rw [if_pos (sameHash same), find_cons_self same, decide_eq_true same]
        rfl
      · rw [find_cons_ne same, decide_eq_false same]
        split <;> rfl

/-- `alter` changes the element with the key of the address. -/
theorem alter_eq (stored : ∀ entry ∈ sessions, cfg.Stored entry) (isK : cfg.key x = some k) :
    OperServ.alter cfg.order change sessions (cfg.cidr x) =
      .ok (Keyed.alter cfg.entryKey (some k) (cfg.onEntry x change) sessions) := by
  induction sessions with
  | nil =>
      rcases exists_hash isK with ⟨h, hashed⟩
      simp only [OperServ.alter, hashed, Keyed.alter, onEntry, Option.map_none]
      cases change none <;> rfl
  | cons entry sessions ih =>
      have rest := ih fun other mem => stored other (List.mem_cons_of_mem entry mem)
      rcases entry_eq (stored entry List.mem_cons_self) isK with
        ⟨h, storedHash, hashed, storedHashed, equal, sameHash⟩
      rcases entry with ⟨range, session⟩
      simp only [OperServ.alter, hashed, storedHashed, equal, rest, Except.bind, Bind.bind]
      rw [Keyed.alter]
      by_cases same : cfg.entryKey (range, session) = some k
      · rw [if_pos (sameHash same), if_pos same, decide_eq_true same, onEntry]
        cases is : change (some session) with
        | none => simp only [Option.map_some, is]; rfl
        | some changed => simp only [Option.map_some, is]; rfl
      · rw [if_neg same, decide_eq_false same]
        split <;> rfl

theorem keeps_onEntry (isK : cfg.key x = some k) :
    Keeps cfg.entryKey (some k) (cfg.onEntry x change) := by
  intro found ofKey entry made
  rcases Option.map_eq_some_iff.mp made with ⟨session, _, rfl⟩
  cases found with
  | none => exact isK
  | some old => exact ofKey old rfl

end Config

end Anope.OperServ
