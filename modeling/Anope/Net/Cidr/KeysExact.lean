import Anope.Net.Cidr.Prefix

/-!
# When keys agree with matching

For each family and length the keys are compared with `cidr::match`.  The IPv6
code keeps the leading bits and agrees as long as it stays inside the address.
The IPv4 code keeps the low bits of a word in network order: on a little-endian
host these are the leading bits only for a whole number of bytes, and on a
big-endian host only for the whole address.
-/

namespace Anope.Net

open Library.Bits

/-! ## Words and masks -/

theorem wordOfBytes_mod (bytes : List UInt8) (count : Nat) :
    wordOfBytes bytes % 256 ^ count = wordOfBytes (bytes.take count) := by
  induction count generalizing bytes with
  | zero => simp [Nat.mod_one, wordOfBytes]
  | succ count ih =>
      cases bytes with
      | nil => simp [wordOfBytes]
      | cons byte bytes =>
          have byteLt : byte.toNat < 256 := byte.toNat_lt
          rw [List.take_succ_cons, wordOfBytes, wordOfBytes, ← ih, pow_succ', Nat.mod_mul]
          rw [show (byte.toNat + 256 * wordOfBytes bytes) % 256 = byte.toNat by omega,
            show (byte.toNat + 256 * wordOfBytes bytes) / 256 = wordOfBytes bytes by omega]

theorem wordOfBytes_inj {left right : List UInt8} (sameLength : left.length = right.length) :
    wordOfBytes left = wordOfBytes right ↔ left = right := by
  induction left generalizing right with
  | nil =>
      rw [List.length_nil, eq_comm, List.length_eq_zero_iff] at sameLength
      simp [sameLength]
  | cons byte left ih =>
      cases right with
      | nil => simp at sameLength
      | cons byte' right =>
          have byteLt : byte.toNat < 256 := byte.toNat_lt
          have byteLt' : byte'.toNat < 256 := byte'.toNat_lt
          have tails := @ih right (by simpa using sameLength)
          simp only [wordOfBytes, List.cons.injEq, ← tails, ← UInt8.toNat_inj]
          omega

/-- The IPv4 mask is defined for the lengths from one to 32 and keeps that many
low bits of the word. -/
theorem wordMask_eq_ok {len : Nat} (positive : 0 < len) (bound : len ≤ 32) :
    wordMask len = .ok (2 ^ len - 1) := by
  have all : ∀ len : Fin 33, 0xFFFFFFFF >>> (32 - (len : Nat)) = 2 ^ (len : Nat) - 1 := by
    decide
  rw [wordMask, if_pos ⟨positive, bound⟩]
  exact congrArg Except.ok (all ⟨len, by omega⟩)

theorem wordMask_eq_undefined {len : Nat} (outside : len = 0 ∨ 32 < len) :
    wordMask len = .error .undefined := by
  rw [wordMask, if_neg (by omega)]

theorem byteMask_eq_highMask {remaining : Nat} :
    remaining < 8 → byteMask remaining = highMask remaining := by
  have all : ∀ remaining : Fin 8, byteMask remaining = highMask remaining := by decide
  exact fun bound => all ⟨remaining, bound⟩

/-- The low `8 * count` bits of two little-endian words are equal exactly when
the first `count` bytes are. -/
theorem wordOfBytes_and_eq_iff {left right : List UInt8} (sameLength : left.length = right.length)
    (count : Nat) :
    wordOfBytes left &&& (2 ^ (8 * count) - 1) = wordOfBytes right &&& (2 ^ (8 * count) - 1) ↔
      left.take count = right.take count := by
  rw [Nat.and_two_pow_sub_one_eq_mod, Nat.and_two_pow_sub_one_eq_mod, pow_mul,
    show 2 ^ 8 = 256 by rfl, wordOfBytes_mod, wordOfBytes_mod,
    wordOfBytes_inj (by simp [sameLength])]

theorem memcmp_eq_ok {left right : List UInt8} {count : Nat} (inLeft : count ≤ left.length)
    (inRight : count ≤ right.length) :
    memcmp left right count = .ok (compare (left.take count) (right.take count)) := by
  rw [memcmp, if_pos ⟨inLeft, inRight⟩]

theorem readByte_eq_ok {ip : List UInt8} {i : Nat} (inside : i < ip.length) :
    readByte ip i = .ok ip[i] := by
  simp [readByte, inside]

theorem readByte_eq_undefined {ip : List UInt8} {i : Nat} (outside : ip.length ≤ i) :
    readByte ip i = .error .undefined := by
  simp [readByte, outside]

namespace Cidr

variable {order : ByteOrder}

/-- Equality is the absence of an order in both directions. -/
theorem equal_eq_ok {a b : Cidr} {lt gt : Bool} (less : a.less order b = .ok lt)
    (greater : b.less order a = .ok gt) : a.equal order b = .ok (!lt && !gt) := by
  rw [equal, less, greater]
  cases lt <;> rfl

/-- The loop of the hash reads nothing but the bytes it covers. -/
theorem hashBytes_eq_ok {ip : List UInt8} {count : Nat} (inside : count ≤ ip.length) :
    ∃ h, ∀ other : List UInt8, ip.take count = other.take count →
      hashBytes other count = .ok h := by
  induction count with
  | zero => exact ⟨0, fun _ _ => rfl⟩
  | succ count ih =>
      obtain ⟨h, hashed⟩ := ih (Nat.le_of_succ_le inside)
      refine ⟨h ^^^ (ip[count].toNat <<< ((count * 8) % 8)), ?_⟩
      intro other same
      have shorter : ip.take count = other.take count := by
        have cut := congrArg (List.take count) same
        simpa [List.take_take] using cut
      have inOther : count < other.length := by
        have lengths := congrArg List.length same
        rw [List.length_take, List.length_take, Nat.min_eq_left inside] at lengths
        omega
      have sameByte : other[count] = ip[count] := by
        have atCount := congrArg (fun bytes => bytes[count]?) same
        simpa [inOther, Nat.lt_of_succ_le inside] using atCount.symm
      rw [hashBytes, hashed other shorter, readByte_eq_ok inOther, sameByte]
      rfl

/-! ## The keys of one family and length -/

/-- The IPv4 operations compare and hash the masked word. -/
theorem inet_eq_ok {len : Nat} (positive : 0 < len) (bound : len ≤ 32) {a b : Cidr}
    {ip otherIp : Addr4} (addr : a.addr = .inet ip) (otherAddr : b.addr = .inet otherIp)
    (aLen : a.cidrLen.toNat = len) :
    a.less order b = .ok (decide (sAddr order ip &&& (2 ^ len - 1) <
        sAddr order otherIp &&& (2 ^ len - 1))) ∧
      a.hash order = .ok (sAddr order ip &&& (2 ^ len - 1)) := by
  constructor
  · simp only [less, addr, otherAddr, Sockaddrs.saFamily, aLen, wordMask_eq_ok positive bound]
    rfl
  · simp only [hash, addr, aLen, wordMask_eq_ok positive bound]
    rfl

/-- The IPv6 comparison is the lexicographic comparison of the whole bytes and
the masked next byte. -/
theorem less_inet6_eq_ok {len : Nat} (bound : len < 128) {a b : Cidr} {ip otherIp : Addr6}
    (addr : a.addr = .inet6 ip) (otherAddr : b.addr = .inet6 otherIp)
    (aLen : a.cidrLen.toNat = len) (inIp : len / 8 < ip.toList.length)
    (inOther : len / 8 < otherIp.toList.length) :
    a.less order b = .ok (
      if compare (ip.toList.take (len / 8)) (otherIp.toList.take (len / 8)) ≠ .eq then
        compare (ip.toList.take (len / 8)) (otherIp.toList.take (len / 8)) == .lt
      else
        decide (ip.toList[len / 8] &&& highMask (len % 8) <
          otherIp.toList[len / 8] &&& highMask (len % 8))) := by
  have restLt : len % 8 < 8 := Nat.mod_lt _ (by decide)
  simp only [less, addr, otherAddr, Sockaddrs.saFamily, aLen,
    memcmp_eq_ok inIp.le inOther.le, readByte_eq_ok inIp, readByte_eq_ok inOther,
    byteMask_eq_highMask restLt]
  by_cases differ : compare (ip.toList.take (len / 8)) (otherIp.toList.take (len / 8)) = .eq
  · simp [differ, Bind.bind, Except.bind, pure, Except.pure, Nat.not_le.mpr bound]
  · simp [differ, Bind.bind, Except.bind, pure, Except.pure]

end Cidr

/-! ## Agreement -/

/-- What the keys of two ranges owe to matching: equality is matching, it is
the absence of an order, it implies equal hashes, and the session table finds
the session of one range under the other exactly when they share the prefix. -/
structure KeysAgree (order : ByteOrder) (a b : Cidr) : Prop where
  equal_iff_match : ∃ same, a.equal order b = .ok same ∧
    (same = true ↔ a.matchAddr b.addr = true)
  unordered_iff_equal : ∃ lt gt, a.less order b = .ok lt ∧ b.less order a = .ok gt ∧
    (lt = false ∧ gt = false ↔ a.equal order b = .ok true)
  hash_eq : a.equal order b = .ok true → ∃ h, a.hash order = .ok h ∧ b.hash order = .ok h
  sameBucket : ∀ {Session : Type} (session : Session),
    ∃ found, SessionMap.find order [(a, session)] b = .ok found ∧
      (found = some session ↔ SharesPrefix a.addr b.addr a.cidrLen.toNat)

/-- Defined operations whose equality is the shared prefix agree with
matching. -/
theorem KeysAgree.of_ok {order : ByteOrder} {a b : Cidr} {lt gt : Bool} {ha hb : Nat}
    (short : a.cidrLen.toNat < 256) (less : a.less order b = .ok lt)
    (greater : b.less order a = .ok gt) (hashA : a.hash order = .ok ha)
    (hashB : b.hash order = .ok hb)
    (same : lt = false ∧ gt = false ↔ SharesPrefix a.addr b.addr a.cidrLen.toNat)
    (sameHash : SharesPrefix a.addr b.addr a.cidrLen.toNat → ha = hb) :
    KeysAgree order a b := by
  have equal := Cidr.equal_eq_ok less greater
  have decided : (!lt && !gt) = true ↔ SharesPrefix a.addr b.addr a.cidrLen.toNat := by
    rw [← same]
    simp
  refine ⟨⟨_, equal, ?_⟩, ⟨lt, gt, less, greater, ?_⟩, ?_, ?_⟩
  · rw [decided, Cidr.matchAddr_iff, Nat.mod_eq_of_lt short]
  · rw [equal, same, ← decided]
    simp
  · intro equalTrue
    rw [equal] at equalTrue
    have shared := decided.mp (Except.ok.inj equalTrue)
    exact ⟨ha, hashA, sameHash shared ▸ hashB⟩
  · intro Session session
    by_cases shared : SharesPrefix a.addr b.addr a.cidrLen.toNat
    · refine ⟨some session, ?_, by simp [shared]⟩
      have equalTrue := decided.mpr shared
      simp [SessionMap.find, hashA, hashB, equal, sameHash shared, equalTrue, Bind.bind,
        Except.bind, pure, Except.pure]
    · refine ⟨none, ?_, by simp [shared]⟩
      have equalFalse : (!lt && !gt) = false := by
        rw [← Bool.not_eq_true]
        exact mt decided.mp shared
      by_cases sameHashes : ha = hb
      · simp [SessionMap.find, hashA, hashB, equal, sameHashes, equalFalse, Bind.bind,
          Except.bind, pure, Except.pure]
      · simp [SessionMap.find, hashA, hashB, sameHashes, Bind.bind, Except.bind, pure,
          Except.pure]

theorem Sockaddrs.eq_inet {address : Sockaddrs} :
    address.family = some .inet → ∃ ip, address = .inet ip := by
  cases address <;> simp [Sockaddrs.family]

theorem Sockaddrs.eq_inet6 {address : Sockaddrs} :
    address.family = some .inet6 → ∃ ip, address = .inet6 ip := by
  cases address <;> simp [Sockaddrs.family]

theorem sharesPrefix_inet_iff (ip otherIp : Addr4) {count : Nat} (bound : count ≤ 4) :
    SharesPrefix (.inet ip) (.inet otherIp) (8 * count) ↔
      ip.toList.take count = otherIp.toList.take count := by
  have within : min (8 * count) 32 = 8 * count + 0 := by omega
  have byBytes := @take_bits_eq_iff otherIp.toList ip.toList (by simp) count 0 (by omega)
  simp only [SharesPrefix, Sockaddrs.family, Sockaddrs.bytes, Option.some.injEq,
    exists_eq_left', true_and, Family.width, within, byBytes]
  simp [highMask, eq_comm]

theorem sharesPrefix_inet6_iff (ip otherIp : Addr6) {len : Nat} (bound : len < 128)
    (inIp : len / 8 < ip.toList.length) (inOther : len / 8 < otherIp.toList.length) :
    SharesPrefix (.inet6 ip) (.inet6 otherIp) len ↔
      ip.toList.take (len / 8) = otherIp.toList.take (len / 8) ∧
        ip.toList[len / 8] &&& highMask (len % 8) =
          otherIp.toList[len / 8] &&& highMask (len % 8) := by
  have restLe : len % 8 ≤ 8 := (Nat.mod_lt _ (by decide)).le
  have splitLen : 8 * (len / 8) + len % 8 = len := Nat.div_add_mod len 8
  have byBytes := @take_bits_eq_iff ip.toList otherIp.toList (by simp) (len / 8) _ restLe
  rw [splitLen, List.getElem?_eq_getElem inIp, List.getElem?_eq_getElem inOther] at byBytes
  simp only [SharesPrefix, Sockaddrs.family, Sockaddrs.bytes, Option.some.injEq,
    exists_eq_left', true_and, Family.width, Nat.min_eq_left bound.le]
  rw [eq_comm, byBytes]
  simp

theorem sAddr_and_eq_iff {order : ByteOrder} (ip otherIp : Addr4) {count : Nat}
    (covers : order = .little ∨ count = 4) :
    sAddr order ip &&& (2 ^ (8 * count) - 1) = sAddr order otherIp &&& (2 ^ (8 * count) - 1) ↔
      ip.toList.take count = otherIp.toList.take count := by
  cases order with
  | little => exact wordOfBytes_and_eq_iff (by simp) count
  | big =>
      obtain rfl : count = 4 := by simpa using covers
      have words := @wordOfBytes_and_eq_iff ip.toList.reverse otherIp.toList.reverse (by simp) 4
      simp only [sAddr, words]
      rw [List.take_of_length_le (by simp), List.take_of_length_le (by simp),
        List.take_of_length_le (by simp), List.take_of_length_le (by simp), List.reverse_inj]

/-- IPv4 keys agree for whole bytes on a little-endian host, and for the whole
address on any host. -/
theorem keysAgree_inet {order : ByteOrder} {count : Nat} (positive : 0 < count)
    (bound : count ≤ 4) (covers : order = .little ∨ count = 4) {a b : Cidr}
    (aFamily : a.addr.family = some .inet) (bFamily : b.addr.family = some .inet)
    (aLen : a.cidrLen.toNat = 8 * count) (bLen : b.cidrLen.toNat = 8 * count) :
    KeysAgree order a b := by
  obtain ⟨ip, addr⟩ := Sockaddrs.eq_inet aFamily
  obtain ⟨otherIp, otherAddr⟩ := Sockaddrs.eq_inet bFamily
  have forward := @Cidr.inet_eq_ok order _ (show 0 < 8 * count by omega) (by omega) a b ip otherIp
    addr otherAddr aLen
  have backward := @Cidr.inet_eq_ok order _ (show 0 < 8 * count by omega) (by omega) b a otherIp ip
    otherAddr addr bLen
  have sameWord := @sAddr_and_eq_iff order ip otherIp count covers
  have shared := sharesPrefix_inet_iff ip otherIp bound
  refine KeysAgree.of_ok (by omega) forward.1 backward.1 forward.2 backward.2 ?_ ?_
  · rw [addr, otherAddr, aLen, shared, ← sameWord, decide_eq_false_iff_not,
      decide_eq_false_iff_not]
    omega
  · rw [addr, otherAddr, aLen, shared, ← sameWord]
    exact id

/-- IPv6 keys agree for every length that leaves a byte to mask. -/
theorem keysAgree_inet6 {order : ByteOrder} {len : Nat} (bound : len < 128) {a b : Cidr}
    (aFamily : a.addr.family = some .inet6) (bFamily : b.addr.family = some .inet6)
    (aLen : a.cidrLen.toNat = len) (bLen : b.cidrLen.toNat = len) :
    KeysAgree order a b := by
  obtain ⟨ip, addr⟩ := Sockaddrs.eq_inet6 aFamily
  obtain ⟨otherIp, otherAddr⟩ := Sockaddrs.eq_inet6 bFamily
  have inIp : len / 8 < ip.toList.length := by
    rw [Vector.length_toList]
    omega
  have inOther : len / 8 < otherIp.toList.length := by
    rw [Vector.length_toList]
    omega
  have restLt : len % 8 < 8 := Nat.mod_lt _ (by decide)
  have forward := @Cidr.less_inet6_eq_ok order len bound a b ip otherIp addr otherAddr aLen inIp
    inOther
  have backward := @Cidr.less_inet6_eq_ok order len bound b a otherIp ip otherAddr addr bLen
    inOther inIp
  have shared := sharesPrefix_inet6_iff ip otherIp bound inIp inOther
  obtain ⟨h, hashed⟩ := Cidr.hashBytes_eq_ok inIp.le
  obtain ⟨otherH, otherHashed⟩ := Cidr.hashBytes_eq_ok inOther.le
  have hashA : a.hash order =
      .ok (h ^^^ (ip.toList[len / 8] &&& highMask (len % 8)).toNat) := by
    simp only [Cidr.hash, addr, aLen, hashed ip.toList rfl, readByte_eq_ok inIp,
      byteMask_eq_highMask restLt]
    rfl
  have hashB : b.hash order =
      .ok (otherH ^^^ (otherIp.toList[len / 8] &&& highMask (len % 8)).toNat) := by
    simp only [Cidr.hash, otherAddr, bLen, otherHashed otherIp.toList rfl,
      readByte_eq_ok inOther, byteMask_eq_highMask restLt]
    rfl
  refine KeysAgree.of_ok (by omega) forward backward hashA hashB ?_ ?_
  · rw [addr, otherAddr, aLen, shared]
    by_cases sameBytes : ip.toList.take (len / 8) = otherIp.toList.take (len / 8)
    · rw [if_neg (by simp [sameBytes]), if_neg (by simp [sameBytes]), decide_eq_false_iff_not,
        decide_eq_false_iff_not, UInt8.not_lt, UInt8.not_lt, and_comm, ← UInt8.le_antisymm_iff]
      simp [sameBytes]
    · have differ : compare (ip.toList.take (len / 8)) (otherIp.toList.take (len / 8)) ≠ .eq :=
        mt Std.compare_eq_iff_eq.mp sameBytes
      have differ' : compare (otherIp.toList.take (len / 8)) (ip.toList.take (len / 8)) ≠ .eq :=
        fun same => sameBytes (Std.compare_eq_iff_eq.mp same).symm
      have swapped : compare (otherIp.toList.take (len / 8)) (ip.toList.take (len / 8)) =
          (compare (ip.toList.take (len / 8)) (otherIp.toList.take (len / 8))).swap :=
        Std.OrientedCmp.eq_swap
      rw [if_pos differ, if_pos differ', swapped]
      refine iff_of_false ?_ fun both => sameBytes both.1
      revert differ
      cases compare (ip.toList.take (len / 8)) (otherIp.toList.take (len / 8)) <;> simp
  · rw [addr, otherAddr, aLen, shared]
    rintro ⟨sameBytes, sameRest⟩
    have sameLoop : h = otherH := by
      have first := hashed otherIp.toList sameBytes
      rw [otherHashed otherIp.toList rfl] at first
      exact (Except.ok.inj first).symm
    rw [sameLoop, sameRest]

/-! ## Disagreement -/

theorem KeysAgree.hash_eq_ok {order : ByteOrder} {a b : Cidr} (agree : KeysAgree order a b) :
    ∃ h, b.hash order = .ok h := by
  obtain ⟨found, lookup, _⟩ := agree.sameBucket ()
  cases hashed : b.hash order with
  | ok h => exact ⟨h, rfl⟩
  | error fault =>
      rw [SessionMap.find, hashed] at lookup
      contradiction

theorem Cidr.hash_inet_ne_ok {order : ByteOrder} {cidr : Cidr} {ip : Addr4}
    (addr : cidr.addr = .inet ip) (outside : cidr.cidrLen.toNat = 0 ∨ 32 < cidr.cidrLen.toNat)
    (h : Nat) : cidr.hash order ≠ .ok h := by
  simp only [Cidr.hash, addr, wordMask_eq_undefined outside]
  exact fun equal => nomatch equal

theorem Cidr.hash_inet6_ne_ok {order : ByteOrder} {cidr : Cidr} {ip : Addr6}
    (addr : cidr.addr = .inet6 ip) (outside : 128 ≤ cidr.cidrLen.toNat) (h : Nat) :
    cidr.hash order ≠ .ok h := by
  have noByte : readByte ip.toList (cidr.cidrLen.toNat / 8) = .error .undefined := by
    apply readByte_eq_undefined
    rw [Vector.length_toList]
    omega
  simp only [Cidr.hash, addr, noByte]
  cases Cidr.hashBytes ip.toList (cidr.cidrLen.toNat / 8) <;> exact fun equal => nomatch equal

/-- The address `0.0.0.0`. -/
def zeroAddr : Addr4 := Vector.replicate 4 0

/-- The address whose only set bit is the first one of the byte at `position`. -/
def highBitAt (position : Nat) : Addr4 :=
  Vector.ofFn fun i => if (i : Nat) = position then 128 else 0

/-- The byte whose first bit the IPv4 mask drops. -/
def droppedByte : ByteOrder → Nat → Nat
  | .little, len => len / 8
  | .big, _ => 0

/-- A mask of low bits that ends inside a byte, or stops short of the word on a
big-endian host, drops a bit that matching compares. -/
theorem equal_and_not_match {order : ByteOrder} {len : Nat} :
    0 < len → len ≤ 32 → (match order with | .little => len % 8 ≠ 0 | .big => len ≠ 32) →
      Cidr.equal order ⟨.inet zeroAddr, [], UInt16.ofNat len⟩
          ⟨.inet (highBitAt (droppedByte order len)), [], UInt16.ofNat len⟩ = .ok true ∧
        Cidr.matchAddr ⟨.inet zeroAddr, [], UInt16.ofNat len⟩
          (.inet (highBitAt (droppedByte order len))) = false := by
  have all : ∀ len : Fin 33, 0 < (len : Nat) →
      (match order with | .little => (len : Nat) % 8 ≠ 0 | .big => (len : Nat) ≠ 32) →
      Cidr.equal order ⟨.inet zeroAddr, [], UInt16.ofNat len⟩
          ⟨.inet (highBitAt (droppedByte order len)), [], UInt16.ofNat len⟩ = .ok true ∧
        Cidr.matchAddr ⟨.inet zeroAddr, [], UInt16.ofNat len⟩
          (.inet (highBitAt (droppedByte order len))) = false := by
    cases order <;> decide +kernel
  exact fun positive bound drops => all ⟨len, by omega⟩ positive drops

/-! ## The exact condition -/

/-- The lengths for which keys agree with matching: whole bytes of an IPv4
address on a little-endian host, the whole IPv4 address on a big-endian host,
and every IPv6 prefix shorter than the address. -/
def KeyLength (order : ByteOrder) : Family → Nat → Prop
  | .inet, len => 0 < len ∧ len ≤ 32 ∧
      match order with
      | .little => len % 8 = 0
      | .big => len = 32
  | .inet6, len => len < 128

/-- The keys of every two ranges of the family and length agree with
matching. -/
def KeysAgreeFor (order : ByteOrder) (family : Family) (len : UInt16) : Prop :=
  ∀ a b : Cidr, a.addr.family = some family → b.addr.family = some family →
    a.cidrLen = len → b.cidrLen = len → KeysAgree order a b

theorem keysAgreeFor_iff (order : ByteOrder) (family : Family) (len : UInt16) :
    KeysAgreeFor order family len ↔ KeyLength order family len.toNat := by
  cases family with
  | inet6 =>
      constructor
      · intro agree
        by_contra long
        let cidr : Cidr := ⟨.inet6 (Vector.replicate 16 0), [], len⟩
        obtain ⟨h, hashed⟩ := (agree cidr cidr rfl rfl rfl rfl).hash_eq_ok
        have outside : 128 ≤ cidr.cidrLen.toNat := Nat.le_of_not_lt long
        exact Cidr.hash_inet6_ne_ok rfl outside h hashed
      · intro short a b aFamily bFamily aLen bLen
        exact keysAgree_inet6 short aFamily bFamily (by rw [aLen]) (by rw [bLen])
  | inet =>
      constructor
      · intro agree
        have defined : 0 < len.toNat ∧ len.toNat ≤ 32 := by
          by_contra outside
          let cidr : Cidr := ⟨.inet zeroAddr, [], len⟩
          obtain ⟨h, hashed⟩ := (agree cidr cidr rfl rfl rfl rfl).hash_eq_ok
          exact Cidr.hash_inet_ne_ok rfl (show len.toNat = 0 ∨ 32 < len.toNat by omega) h hashed
        obtain ⟨positive, bound⟩ := defined
        refine ⟨positive, bound, ?_⟩
        by_contra drops
        obtain ⟨equalTrue, matchFalse⟩ :=
          @equal_and_not_match order len.toNat positive bound
            (by cases order <;> exact drops)
        rw [UInt16.ofNat_toNat] at equalTrue matchFalse
        obtain ⟨same, equal, agrees⟩ :=
          (agree ⟨.inet zeroAddr, [], len⟩
            ⟨.inet (highBitAt (droppedByte order len.toNat)), [], len⟩
            rfl rfl rfl rfl).equal_iff_match
        rw [equalTrue] at equal
        cases equal
        exact Bool.false_ne_true (matchFalse.symm.trans (agrees.mp rfl))
      · rintro ⟨positive, bound, wholeBytes⟩ a b aFamily bFamily aLen bLen
        obtain ⟨count, countEq⟩ : ∃ count, len.toNat = 8 * count := by
          refine ⟨len.toNat / 8, ?_⟩
          cases order <;> simp only at wholeBytes <;> omega
        have covers : order = .little ∨ count = 4 := by
          cases order with
          | little => exact .inl rfl
          | big =>
              right
              simp only at wholeBytes
              omega
        exact keysAgree_inet (by omega) (by omega) covers aFamily bFamily
          (by rw [aLen, countEq]) (by rw [bLen, countEq])

/-- With the length 20, `10.0.0.0` and `10.0.128.0` are equal as keys on a
little-endian host although the range of one does not match the other. -/
theorem not_keysAgreeFor_inet_20 : ¬KeysAgreeFor .little .inet 20 := by
  intro agree
  obtain ⟨same, equal, agrees⟩ :=
    (agree ⟨.inet #v[10, 0, 0, 0], [], 20⟩ ⟨.inet #v[10, 0, 128, 0], [], 20⟩
      rfl rfl rfl rfl).equal_iff_match
  have equalTrue : Cidr.equal .little ⟨.inet #v[10, 0, 0, 0], [], 20⟩
      ⟨.inet #v[10, 0, 128, 0], [], 20⟩ = .ok true := by
    decide +kernel
  have matchFalse : Cidr.matchAddr ⟨.inet #v[10, 0, 0, 0], [], 20⟩
      (.inet #v[10, 0, 128, 0]) = false := by
    decide +kernel
  rw [equalTrue] at equal
  cases equal
  exact Bool.false_ne_true (matchFalse.symm.trans (agrees.mp rfl))

end Anope.Net
