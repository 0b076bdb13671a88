import Anope.Text.Convert

/-!
# Addresses and CIDR ranges

`sockaddrs` without the ports, and `cidr` with its three constructors and the
comparison with an address.  The C library's conversions between addresses and
text are parameters.
-/

namespace Anope.Net

open Anope.Text.Convert

/-- The four bytes of an `in_addr`, in network order. -/
abbrev Addr4 := Vector UInt8 4

/-- The sixteen bytes of an `in6_addr`. -/
abbrev Addr6 := Vector UInt8 16

/-- `inet_pton` and `inet_ntop` for the two families. -/
structure Inet where
  pton4 : Str → Option Addr4
  pton6 : Str → Option Addr6
  ntop4 : Addr4 → Option Str
  ntop6 : Addr6 → Option Str

/-- The families `AF_INET` and `AF_INET6`. -/
inductive Family where
  | inet
  | inet6
  deriving DecidableEq, Repr

/-- The number of address bits in a family. -/
def Family.width : Family → Nat
  | .inet => 32
  | .inet6 => 128

/-- The union `sockaddrs`; `unspec` is the cleared one. -/
inductive Sockaddrs where
  | unspec
  | inet (addr : Addr4)
  | inet6 (addr : Addr6)
  | unix (path : Str)
  deriving DecidableEq, Repr

namespace Sockaddrs

/-- `sockaddrs::valid`: the size of the represented address is not zero. -/
def valid : Sockaddrs → Bool
  | unspec => false
  | inet _ | inet6 _ | unix _ => true

/-- `sockaddrs::pton` for the Internet families; `inet_pton` sees the text up to
its first terminator. -/
def pton (lib : Inet) (type : Family) (address : Str) : Sockaddrs :=
  let cStr := address.takeWhile (· ≠ 0)
  match type with
  | .inet => (lib.pton4 cStr).elim unspec inet
  | .inet6 => (lib.pton6 cStr).elim unspec inet6

/-- `sockaddrs::addr`. -/
def addr (lib : Inet) : Sockaddrs → Str
  | unspec => []
  | inet ip => (lib.ntop4 ip).getD []
  | inet6 ip => (lib.ntop6 ip).getD []
  | unix path => path

/-- The Internet family of an address, when it has one. -/
def family : Sockaddrs → Option Family
  | inet _ => some .inet
  | inet6 _ => some .inet6
  | unspec | unix _ => none

/-- The bytes of an Internet address. -/
def bytes : Sockaddrs → List UInt8
  | inet ip => ip.toList
  | inet6 ip => ip.toList
  | unspec | unix _ => []

theorem length_bytes {address : Sockaddrs} {family : Family} :
    address.family = some family → 8 * address.bytes.length = family.width := by
  cases address <;> rintro ⟨⟩ <;> simp [bytes, Family.width]

end Sockaddrs

/-- A `cidr`. -/
structure Cidr where
  addr : Sockaddrs
  cidrIp : Str
  cidrLen : UInt16
  deriving DecidableEq, Repr

/-- The text before and after the last occurrence of a byte. -/
def splitAtLast (sep : UInt8) (text : Str) : Option (Str × Str) :=
  if sep ∈ text then
    let reversed := text.reverse
    some (((reversed.dropWhile (· ≠ sep)).drop 1).reverse,
      (reversed.takeWhile (· ≠ sep)).reverse)
  else none

/-- The family that a text is taken to be of: a colon means IPv6. -/
def textFamily (ip : Str) : Family :=
  if 58 ∈ ip then .inet6 else .inet

/-- What the three constructors of `cidr` are given. -/
inductive Source where
  /-- `cidr(const Anope::string &ip)`. -/
  | text (ip : Str)
  /-- `cidr(const Anope::string &ip, unsigned char len)`. -/
  | textLen (ip : Str) (len : UInt8)
  /-- `cidr(const sockaddrs &a, unsigned char len)`. -/
  | sockaddrs (a : Sockaddrs) (len : UInt8)
  deriving DecidableEq, Repr

/-- The prefix length a source asks for: the result of
`Anope::Convert<unsigned int>` on the text after the slash, the width of the
family without a slash, or the given length. -/
def Source.length : Source → Nat
  | text ip =>
      match splitAtLast 47 ip with
      | none => (textFamily ip).width
      | some (_, cidrRange) => convertUnsigned 32 cidrRange (textFamily ip).width
  | textLen _ len => len.toNat
  | sockaddrs _ len => len.toNat

namespace Cidr

/-- The constructors of `cidr`.  The length is stored as an `unsigned short`. -/
def build (lib : Inet) : Source → Cidr
  | .text ip =>
      match splitAtLast 47 ip with
      | none =>
          { cidrIp := ip
            cidrLen := UInt16.ofNat (textFamily ip).width
            addr := .pton lib (textFamily ip) ip }
      | some (realIp, cidrRange) =>
          { cidrIp := realIp
            cidrLen := UInt16.ofNat (convertUnsigned 32 cidrRange (textFamily ip).width)
            addr := .pton lib (textFamily ip) realIp }
  | .textLen ip len =>
      { addr := .pton lib (textFamily ip) ip
        cidrIp := ip
        cidrLen := len.toUInt16 }
  | .sockaddrs a len =>
      { addr := a
        cidrIp := a.addr lib
        cidrLen := len.toUInt16 }

/-- `cidr::valid`. -/
def valid (cidr : Cidr) : Bool :=
  cidr.addr.valid

/-- `uint8_t m = ~0u << (8 - byte)`. -/
def restMask (byte : Nat) : UInt8 :=
  ((~~~(0 : UInt32)) <<< UInt32.ofNat (8 - byte)).toUInt8

/-- The comparison of `cidr::match` once the length is clamped: whole bytes by
`memcmp`, then the remaining bits of the next byte under a mask. -/
def comparePrefix (ip theirIp : List UInt8) (len : Nat) : Bool :=
  let byte := len / 8
  if ip.take byte ≠ theirIp.take byte then false
  else
    let rest := len % 8
    if rest ≠ 0 then
      let m := restMask rest
      match ip[byte]?, theirIp[byte]? with
      | some x, some y => x &&& m == y &&& m
      | _, _ => false
    else true

/-- `cidr::match`.  The local `len` is a `uint8_t`. -/
def matchAddr (cidr : Cidr) (other : Sockaddrs) : Bool :=
  if !cidr.valid || !other.valid then false
  else
    let len := cidr.cidrLen.toUInt8
    match cidr.addr, other with
    | .inet ip, .inet theirIp =>
        let len := if len > 32 then 32 else len
        comparePrefix ip.toList theirIp.toList len.toNat
    | .inet6 ip, .inet6 theirIp =>
        let len := if len > 128 then 128 else len
        comparePrefix ip.toList theirIp.toList len.toNat
    | _, _ => false

end Cidr

end Anope.Net
