import Anope.Library.Split
import Anope.Net.Cidr.Core
import Anope.Text.Convert
import Anope.Text.Match.Core

/-!
# Mask entries

`Entry`, the parsed form of a list mode's mask `nick!user@host#real`.  An empty
part stands for a part that restricts nothing, and a length of zero for a host
that is no range.
-/

namespace Anope.Mode

open Library.Split
open Anope.Net
open Anope.Text
open Anope.Text.Convert
open Anope.Text.Match

/-- The fields of a `User` that a mask is compared with. -/
structure User where
  nick : Str
  ident : Str
  vident : Str
  host : Str
  vhost : Str
  chost : Str
  /-- `HasMode("CLOAK")`. -/
  cloak : Bool
  realname : Str
  ip : Sockaddrs
  deriving DecidableEq, Repr

namespace User

/-- `User::GetIdent`. -/
def getIdent (u : User) : Str :=
  u.ident

/-- `User::GetVIdent`. -/
def getVIdent (u : User) : Str :=
  if u.vident ≠ [] then u.vident else u.ident

/-- `User::GetCloakedHost`. -/
def getCloakedHost (u : User) : Str :=
  u.chost

/-- `User::GetDisplayedHost`. -/
def getDisplayedHost (u : User) : Str :=
  if u.vhost ≠ [] then u.vhost
  else if u.cloak ∧ u.getCloakedHost ≠ [] then u.getCloakedHost
  else u.host

end User

/-- `sockaddrs::sockaddrs(const Anope::string &)`: only a text of hexadecimal
digits, dots and colons is handed to `inet_pton`. -/
def sockaddrsOf (casemap : Casemap) (lib : Inet) (address : Str) : Sockaddrs :=
  if address ≠ [] ∧ (casemap.ciStr address).all
      fun c => c ∈ casemap.ciStr (ascii "0123456789abcdef.:") then
    .pton lib (textFamily address) address
  else .unspec

/-- The class `Entry`. -/
structure Entry where
  name : Str
  mask : Str
  cidrLen : UInt16
  family : Option Family
  nick : Str
  user : Str
  host : Str
  real : Str
  deriving DecidableEq, Repr

/-- The parts of a mask. -/
structure Parts where
  nick : Str
  user : Str
  host : Str
  real : Str
  deriving DecidableEq, Repr

namespace Parts

/-- `!` or `@`. -/
def isFirstSep (c : UInt8) : Bool :=
  c == 33 || c == 64

/-- The first half of `Entry::Entry`: the nick, user and host parts. -/
def split (mask : Str) : Parts :=
  match splitFirst isFirstSep mask with
  | none => if 46 ∉ mask ∧ 58 ∉ mask then ⟨mask, [], [], []⟩ else ⟨[], [], mask, []⟩
  | some (before, firstSep, after) =>
      if firstSep = 33 then
        match cut 64 after with
        | none => ⟨before, after, [], []⟩
        | some (user, host) => ⟨before, user, host, []⟩
      else ⟨[], before, after, []⟩

/-- The realname that a host part may carry. -/
def splitReal (parts : Parts) : Parts :=
  match cut 35 parts.host with
  | none => parts
  | some (host, real) => { parts with host := host, real := real }

end Parts

/-- `find_first_not_of("*") == npos`. -/
def AllStars (part : Str) : Prop :=
  ∀ c ∈ part, c = star

instance decidableAllStars (part : Str) : Decidable (AllStars part) :=
  inferInstanceAs (Decidable (∀ c ∈ part, c = star))

/-- A part that is all stars is cleared. -/
def clearStars (part : Str) : Str :=
  if AllStars part then [] else part

/-- The address and the length of a host part `ip/len`. -/
def hostRange (casemap : Casemap) (lib : Inet) (host : Str) : Option (Sockaddrs × Nat) :=
  match splitAtLast 47 host with
  | none => none
  | some (address, cidrRange) =>
      let cidrAddr := sockaddrsOf casemap lib address
      match tryConvertUnsigned 16 cidrRange with
      | some range => if cidrAddr.valid then some (cidrAddr, range) else none
      | none => none

namespace Entry

/-- `Entry::Entry`. -/
def build (casemap : Casemap) (lib : Inet) (mask name : Str) (r : Bool) : Entry :=
  let parts := Parts.split mask
  let parts := if r then parts.splitReal else parts
  let entry : Entry :=
    { name := name
      mask := mask
      cidrLen := 0
      family := none
      nick := clearStars parts.nick
      user := clearStars parts.user
      host := clearStars parts.host
      real := clearStars parts.real }
  match hostRange casemap lib entry.host with
  | none => entry
  | some (cidrAddr, range) =>
      { entry with
        cidrLen := UInt16.ofNat range
        family := cidrAddr.family
        host := cidrAddr.addr lib }

/-- `Entry::GetCleanMask`. -/
def getCleanMask (entry : Entry) : Str :=
  let part (text : Str) : Str := if text.isEmpty then [star] else text
  let length : Str :=
    match entry.family with
    | some .inet => if entry.cidrLen.toNat < 32 then 47 :: decimal entry.cidrLen.toNat else []
    | some .inet6 => if entry.cidrLen.toNat < 128 then 47 :: decimal entry.cidrLen.toNat else []
    | none => []
  part entry.nick ++ 33 :: part entry.user ++ 64 :: part entry.host ++ length ++
    if entry.real.isEmpty then [] else 35 :: entry.real

/-- What `Entry::Matches` asks of the rest of the program: the protocol's
`IsExtbanValid`, and `ChannelModeList::Matches` of the list mode that
`FindChannelModeByName` returns for a name. -/
structure Extbans where
  isExtbanValid : Str → Bool
  findMatches : Str → Option (User → Entry → Bool)

/-- A part refuses a user when it is there and its glob matches none of the
texts it is compared with. -/
def refuses (casemap : Casemap) (part : Str) (texts : List Str) : Bool :=
  part ≠ [] && texts.all fun text => !globMatch casemap text part

/-- `Entry::Matches`. -/
def matchesUser (casemap : Casemap) (lib : Inet) (extbans : Extbans) (entry : Entry) (u : User)
    (full : Bool) : Bool :=
  match if extbans.isExtbanValid entry.mask then extbans.findMatches entry.name else none with
  | some cml => cml u entry
  | none =>
      let full := full || u.getDisplayedHost == u.host
      !refuses casemap entry.nick [u.nick] &&
        !refuses casemap entry.user (u.getVIdent :: if full then [u.getIdent] else []) &&
        (if entry.cidrLen ≠ 0 && full then
          -- the length is narrowed to the `unsigned char` that the constructor takes
          (Cidr.build lib (.textLen entry.host entry.cidrLen.toUInt8)).matchAddr u.ip
        else
          !refuses casemap entry.host (u.getDisplayedHost :: u.getCloakedHost ::
            if full then [u.host, u.ip.addr lib] else [])) &&
        !refuses casemap entry.real [u.realname]

end Entry

end Anope.Mode
