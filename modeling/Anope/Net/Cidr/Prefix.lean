import Anope.Net.Cidr.Core

/-!
# CIDR matching and prefixes

`cidr::match` compares a prefix of the address bits.  Its length is the stored
length narrowed to a byte and clamped to the width of the family, so it is the
length the source asked for unless that length is at least 256 and wraps around
to something shorter than an address.
-/

namespace Anope.Net

open Library.Bits

/-- The two addresses are of one family and share their first `len` bits, or
all bits when the family has fewer. -/
def SharesPrefix (ip other : Sockaddrs) (len : Nat) : Prop :=
  ∃ family, ip.family = some family ∧ other.family = some family ∧
    (bits other.bytes).take (min len family.width) =
      (bits ip.bytes).take (min len family.width)

namespace Cidr

/-- The mask of the remaining bits. -/
theorem restMask_eq_highMask {rest : Nat} : rest < 8 → restMask rest = highMask rest := by
  have all : ∀ rest : Fin 8, restMask rest = highMask rest := by decide
  exact fun bound => all ⟨rest, bound⟩

/-- Byte-wise comparison is comparison of the first `len` bits. -/
theorem comparePrefix_iff {ip theirIp : List UInt8} (sameLength : ip.length = theirIp.length)
    {len : Nat} (bound : len ≤ 8 * ip.length) :
    comparePrefix ip theirIp len = true ↔
      (bits theirIp).take len = (bits ip).take len := by
  have restLt : len % 8 < 8 := Nat.mod_lt _ (by decide)
  have splitLen : 8 * (len / 8) + len % 8 = len := Nat.div_add_mod len 8
  have byBytes := take_bits_eq_iff sameLength (len / 8) restLt.le
  rw [splitLen] at byBytes
  rw [eq_comm (a := (bits theirIp).take len), byBytes]
  unfold comparePrefix
  by_cases sameBytes : ip.take (len / 8) = theirIp.take (len / 8)
  · by_cases noRest : len % 8 = 0
    · simp [sameBytes, noRest, highMask]
    · have inIp : len / 8 < ip.length := by omega
      have inTheirIp : len / 8 < theirIp.length := sameLength ▸ inIp
      simp [sameBytes, noRest, restMask_eq_highMask restLt, List.getElem?_eq_getElem inIp,
        List.getElem?_eq_getElem inTheirIp]
  · simp [sameBytes]

theorem toNat_clamp (len bound : UInt8) :
    (if len > bound then bound else len).toNat = min len.toNat bound.toNat := by
  by_cases above : len > bound
  · rw [if_pos above]
    exact (Nat.min_eq_right (UInt8.lt_iff_toNat_lt.mp above).le).symm
  · rw [if_neg above]
    exact (Nat.min_eq_left (UInt8.le_iff_toNat_le.mp (UInt8.not_lt.mp above))).symm

/-- What `cidr::match` decides: a shared prefix of the stored length modulo
256. -/
theorem matchAddr_iff (cidr : Cidr) (other : Sockaddrs) :
    cidr.matchAddr other = true ↔ SharesPrefix cidr.addr other (cidr.cidrLen.toNat % 256) := by
  obtain ⟨addr, cidrIp, cidrLen⟩ := cidr
  have narrow : cidrLen.toUInt8.toNat = cidrLen.toNat % 256 := UInt16.toNat_toUInt8 cidrLen
  cases addr with
  | inet ip =>
      cases other with
      | inet theirIp =>
          have compared := @comparePrefix_iff ip.toList theirIp.toList (by simp)
            (min (cidrLen.toNat % 256) 32) (by simp)
          simp only [matchAddr, valid, Sockaddrs.valid, toNat_clamp, narrow]
          simpa [SharesPrefix, Sockaddrs.family, Sockaddrs.bytes, Family.width] using compared
      | unspec | inet6 _ | unix _ => simp [matchAddr, SharesPrefix, Sockaddrs.family]
  | inet6 ip =>
      cases other with
      | inet6 theirIp =>
          have compared := @comparePrefix_iff ip.toList theirIp.toList (by simp)
            (min (cidrLen.toNat % 256) 128) (by simp)
          simp only [matchAddr, valid, Sockaddrs.valid, toNat_clamp, narrow]
          simpa [SharesPrefix, Sockaddrs.family, Sockaddrs.bytes, Family.width] using compared
      | unspec | inet _ | unix _ => simp [matchAddr, SharesPrefix, Sockaddrs.family]
  | unspec | unix _ => cases other <;> simp [matchAddr, SharesPrefix, Sockaddrs.family]

end Cidr

/-- Prefixes of the width of the family or more are all the whole address. -/
theorem sharesPrefix_congr {ip other : Sockaddrs} {len len' : Nat}
    (same : ∀ family, ip.family = some family → min len family.width = min len' family.width) :
    SharesPrefix ip other len ↔ SharesPrefix ip other len' := by
  constructor
  · rintro ⟨family, ipFamily, otherFamily, shared⟩
    exact ⟨family, ipFamily, otherFamily, same family ipFamily ▸ shared⟩
  · rintro ⟨family, ipFamily, otherFamily, shared⟩
    exact ⟨family, ipFamily, otherFamily, (same family ipFamily).symm ▸ shared⟩

/-- The Internet address of a family with given bytes. -/
theorem exists_sockaddrs_of_bytes (family : Family) {bytes : List UInt8}
    (length : 8 * bytes.length = family.width) :
    ∃ address : Sockaddrs, address.family = some family ∧ address.bytes = bytes := by
  cases family with
  | inet =>
      have four : bytes.length = 4 := by
        simp only [Family.width] at length
        omega
      exact ⟨.inet ⟨bytes.toArray, by simpa using four⟩, rfl, rfl⟩
  | inet6 =>
      have sixteen : bytes.length = 16 := by
        simp only [Family.width] at length
        omega
      exact ⟨.inet6 ⟨bytes.toArray, by simpa using sixteen⟩, rfl, rfl⟩

/-- A shorter prefix is shared by some address that does not share a longer
one. -/
theorem exists_sharesPrefix_not {ip : Sockaddrs} {family : Family}
    (ipFamily : ip.family = some family) {short long : Nat} (less : short < long)
    (bound : short < family.width) :
    ∃ other : Sockaddrs, other.family = some family ∧ SharesPrefix ip other short ∧
      ¬SharesPrefix ip other long := by
  have ipLength := Sockaddrs.length_bytes ipFamily
  obtain ⟨bytes, length, shared, differ⟩ :=
    @exists_take_bits_eq_ne ip.bytes short (min long family.width) (by omega) (by omega)
  obtain ⟨other, otherFamily, rfl⟩ := exists_sockaddrs_of_bytes family (length ▸ ipLength)
  refine ⟨other, otherFamily, ⟨family, ipFamily, otherFamily, ?_⟩, ?_⟩
  · rwa [Nat.min_eq_left bound.le]
  · rintro ⟨family', ipFamily', _, sharedLong⟩
    rw [ipFamily] at ipFamily'
    cases ipFamily'
    exact differ sharedLong

/-! ## Matching and the length asked for -/

theorem Cidr.cidrLen_build (lib : Inet) (source : Source) :
    (Cidr.build lib source).cidrLen.toNat % 256 = source.length % 256 := by
  cases source with
  | text ip =>
      simp only [Cidr.build, Source.length]
      split <;> simp [UInt16.toNat_ofNat', Nat.mod_mod_of_dvd]
  | textLen ip len => simp [Cidr.build, Source.length]
  | sockaddrs a len => simp [Cidr.build, Source.length]

/-- `cidr::match` on a freshly built range compares the prefix asked for, with
every Internet address. -/
def MatchesPrefix (lib : Inet) (source : Source) : Prop :=
  ∀ other : Sockaddrs, other.family ≠ none →
    ((Cidr.build lib source).matchAddr other = true ↔
      SharesPrefix (Cidr.build lib source).addr other source.length)

/-- Matching is prefix matching exactly for the lengths below 256 and those
whose remainder still covers a whole address. -/
theorem matchesPrefix_iff (lib : Inet) (source : Source) :
    MatchesPrefix lib source ↔
      ∀ family, (Cidr.build lib source).addr.family = some family →
        source.length < 256 ∨ family.width ≤ source.length % 256 := by
  have decided : ∀ other, (Cidr.build lib source).matchAddr other = true ↔
      SharesPrefix (Cidr.build lib source).addr other (source.length % 256) := by
    intro other
    rw [Cidr.matchAddr_iff, Cidr.cidrLen_build]
  constructor
  · intro exactPrefix family addrFamily
    by_contra wraps
    rw [not_or, Nat.not_lt, Nat.not_le] at wraps
    obtain ⟨atLeast, narrow⟩ := wraps
    obtain ⟨other, otherFamily, short, notLong⟩ :=
      exists_sharesPrefix_not addrFamily
        (show source.length % 256 < source.length by omega) narrow
    have ofFamily : other.family ≠ none := by simp [otherFamily]
    exact notLong ((exactPrefix other ofFamily).mp ((decided other).mpr short))
  · intro covers other _
    rw [decided]
    refine sharesPrefix_congr fun family addrFamily => ?_
    rcases covers family addrFamily with below | covered
    · rw [Nat.mod_eq_of_lt below]
    · rw [Nat.min_eq_right covered,
        Nat.min_eq_right (covered.trans (Nat.mod_le source.length 256))]

/-- A resolver that knows one address. -/
def oneAddress (text : Str) (ip : Addr4) : Inet where
  pton4 address := if address = text then some ip else none
  pton6 _ := none
  ntop4 address := if address = ip then some text else none
  ntop6 _ := none

/-- The length 256 is narrowed to zero, so the range matches every IPv4
address. -/
theorem not_matchesPrefix_256 :
    ¬MatchesPrefix (oneAddress (ascii "1.2.3.4") #v[1, 2, 3, 4])
      (.text (ascii "1.2.3.4/256")) := by
  intro exactPrefix
  have matched : (Cidr.build (oneAddress (ascii "1.2.3.4") #v[1, 2, 3, 4])
      (.text (ascii "1.2.3.4/256"))).matchAddr (.inet #v[9, 9, 9, 9]) = true := by
    decide +kernel
  obtain ⟨family, addrFamily, otherFamily, shared⟩ :=
    (exactPrefix (.inet #v[9, 9, 9, 9]) (by decide)).mp matched
  cases otherFamily
  exact absurd shared (by decide +kernel)

/-!
## CIDR ranges as keys

`cidr::operator<`, `operator==` and `cidr::hash`, and the session table keyed by
ranges.  The IPv4 code masks the word `s_addr`, whose bytes are in network
order, so the mask keeps different address bits on hosts of different byte
order.  Shifts by a negative amount or by the width of the word and reads
outside the address have no defined result.
-/

/-- Why an operation on keys yields no value. -/
inductive Fault where
  /-- The C++ standard gives the execution no meaning. -/
  | undefined
  /-- `throw CoreException("Unknown AFTYPE for cidr")`. -/
  | unknownFamily
  deriving DecidableEq, Repr

/-- The order in which the host keeps the bytes of a word. -/
inductive ByteOrder where
  | little
  | big
  deriving DecidableEq, Repr

/-- The number with given bytes, least significant first. -/
def wordOfBytes : List UInt8 → Nat
  | [] => 0
  | byte :: bytes => byte.toNat + 256 * wordOfBytes bytes

/-- The word `sin_addr.s_addr` as the host reads it. -/
def sAddr (order : ByteOrder) (ip : Addr4) : Nat :=
  match order with
  | .little => wordOfBytes ip.toList
  | .big => wordOfBytes ip.toList.reverse

/-- `0xFFFFFFFFU >> (32 - cidr_len)`. -/
def wordMask (len : Nat) : Except Fault Nat :=
  if 0 < len ∧ len ≤ 32 then .ok (0xFFFFFFFF >>> (32 - len)) else .error .undefined

/-- `unsigned char m = 0xFF << (8 - remaining)`. -/
def byteMask (remaining : Nat) : UInt8 :=
  ((0xFF : UInt32) <<< UInt32.ofNat (8 - remaining)).toUInt8

/-- `memcmp` on two arrays, which both need `count` bytes. -/
def memcmp (left right : List UInt8) (count : Nat) : Except Fault Ordering :=
  if count ≤ left.length ∧ count ≤ right.length then
    .ok (compare (left.take count) (right.take count))
  else .error .undefined

/-- `s6_addr[i]`. -/
def readByte (ip : List UInt8) (i : Nat) : Except Fault UInt8 :=
  match ip[i]? with
  | some byte => .ok byte
  | none => .error .undefined

/-- The numbers of the families. -/
def Sockaddrs.saFamily : Sockaddrs → Nat
  | unspec => 0
  | unix _ => 1
  | inet _ => 2
  | inet6 _ => 10

namespace Cidr

/-- `cidr::operator<`. -/
def less (order : ByteOrder) (cidr other : Cidr) : Except Fault Bool :=
  if cidr.addr.saFamily ≠ other.addr.saFamily then
    .ok (decide (cidr.addr.saFamily < other.addr.saFamily))
  else
    let len := cidr.cidrLen.toNat
    match cidr.addr, other.addr with
    | .inet ip, .inet otherIp => do
        let m ← wordMask len
        return decide (sAddr order ip &&& m < sAddr order otherIp &&& m)
    | .inet6 ip, .inet6 otherIp => do
        let i ← memcmp ip.toList otherIp.toList (len / 8)
        if i ≠ .eq ∨ 128 ≤ len then
          return i == .lt
        else
          let m := byteMask (len % 8)
          let byte ← readByte ip.toList (len / 8)
          let otherByte ← readByte otherIp.toList (len / 8)
          return decide (byte &&& m < otherByte &&& m)
    | _, _ => .error .unknownFamily

/-- `cidr::operator==`. -/
def equal (order : ByteOrder) (cidr other : Cidr) : Except Fault Bool := do
  if ← cidr.less order other then
    return false
  else
    return !(← other.less order cidr)

/-- The loop of `cidr::hash` over whole bytes; `sizeof(size_t)` is eight. -/
def hashBytes (ip : List UInt8) : Nat → Except Fault Nat
  | 0 => .ok 0
  | i + 1 => do
      let h ← hashBytes ip i
      let byte ← readByte ip i
      return h ^^^ (byte.toNat <<< ((i * 8) % 8))

/-- `cidr::hash::operator()`. -/
def hash (order : ByteOrder) (s : Cidr) : Except Fault Nat :=
  let len := s.cidrLen.toNat
  match s.addr with
  | .inet ip => do
      let m ← wordMask len
      return sAddr order ip &&& m
  | .inet6 ip => do
      let h ← hashBytes ip.toList (len / 8)
      let byte ← readByte ip.toList (len / 8)
      return h ^^^ (byte &&& byteMask (len % 8)).toNat
  | .unspec | .unix _ => .error .unknownFamily

end Cidr

/-- The session table, an unordered map from ranges. -/
abbrev SessionMap (Session : Type) := List (Cidr × Session)

/-- `SessionMap::find`: the element whose key has the hash of the key sought and
compares equal to it. -/
def SessionMap.find {Session : Type} (order : ByteOrder) :
    SessionMap Session → Cidr → Except Fault (Option Session)
  | [], key => do
      let _ ← key.hash order
      return none
  | (stored, session) :: sessions, key => do
      let h ← key.hash order
      let storedHash ← stored.hash order
      if storedHash = h then
        if ← stored.equal order key then
          return some session
        else
          find order sessions key
      else
        find order sessions key

end Anope.Net
