import Anope.Mode.Entry
import Anope.Net.Cidr.Prefix

/-!
# Whom a mask names

A mask reads as its parts by a small grammar, and it names a user when every
part that says something matches.  `Entry::Matches` decides this except for
ranges: a length of zero is taken for a host without a range, and a length from
256 on is narrowed before the addresses are compared.
-/

namespace Anope.Mode

open Library.Split
open Anope.Net
open Anope.Text
open Anope.Text.Match

/-! ## The grammar of masks -/

/-- A host part with its realname behind the first `#`. -/
inductive HostPart : Str → Str → Str → Prop
  | plain {host : Str} (noReal : 35 ∉ host) : HostPart host host []
  | real {host real : Str} (noReal : 35 ∉ host) : HostPart (host ++ 35 :: real) host real

/-- A mask `nick!user@host#real` with some parts missing.  Without `!` and `@`
it is a host when it has a dot or a colon, and a nick otherwise. -/
inductive MaskReads : Str → Parts → Prop
  | nick {nick : Str} (noSep : 33 ∉ nick ∧ 64 ∉ nick) (noHost : 46 ∉ nick ∧ 58 ∉ nick) :
      MaskReads nick ⟨nick, [], [], []⟩
  | host {text host real : Str} (noSep : 33 ∉ text ∧ 64 ∉ text) (isHost : 46 ∈ text ∨ 58 ∈ text)
      (part : HostPart text host real) : MaskReads text ⟨[], [], host, real⟩
  | nickUser {nick user : Str} (noSep : 33 ∉ nick ∧ 64 ∉ nick) (noHost : 64 ∉ user) :
      MaskReads (nick ++ 33 :: user) ⟨nick, user, [], []⟩
  | nickUserHost {nick user text host real : Str} (noSep : 33 ∉ nick ∧ 64 ∉ nick)
      (noHost : 64 ∉ user) (part : HostPart text host real) :
      MaskReads (nick ++ 33 :: (user ++ 64 :: text)) ⟨nick, user, host, real⟩
  | userHost {user text host real : Str} (noSep : 33 ∉ user ∧ 64 ∉ user)
      (part : HostPart text host real) : MaskReads (user ++ 64 :: text) ⟨[], user, host, real⟩

theorem exists_hostPart (text : Str) : ∃ host real, HostPart text host real := by
  cases split : cut 35 text with
  | none => exact ⟨text, [], .plain (cut_eq_none_iff.mp split)⟩
  | some pieces =>
      obtain ⟨rfl, noReal⟩ := cut_eq_some_iff.mp split
      exact ⟨pieces.1, pieces.2, .real noReal⟩

theorem isFirstSep_eq_false {text : Str} (noSep : 33 ∉ text ∧ 64 ∉ text) :
    ∀ c ∈ text, Parts.isFirstSep c = false := by
  intro c mem
  have notNick := ne_of_mem_of_not_mem mem noSep.1
  have notUser := ne_of_mem_of_not_mem mem noSep.2
  simp [Parts.isFirstSep, notNick, notUser]

theorem noSep_of_isFirstSep {text : Str} (none : ∀ c ∈ text, Parts.isFirstSep c = false) :
    33 ∉ text ∧ 64 ∉ text :=
  ⟨fun mem => absurd (none 33 mem) (by decide), fun mem => absurd (none 64 mem) (by decide)⟩

/-- The grammar reads every mask. -/
theorem exists_reads (mask : Str) : ∃ parts, MaskReads mask parts := by
  cases split : splitFirst Parts.isFirstSep mask with
  | none =>
      have noSep := noSep_of_isFirstSep (splitFirst_eq_none_iff.mp split)
      by_cases noHost : 46 ∉ mask ∧ 58 ∉ mask
      · exact ⟨_, .nick noSep noHost⟩
      · obtain ⟨host, real, part⟩ := exists_hostPart mask
        rw [not_and_or, not_not, not_not] at noHost
        exact ⟨_, .host noSep noHost part⟩
  | some pieces =>
      obtain ⟨before, sep, after⟩ := pieces
      obtain ⟨rfl, isSep, none⟩ := splitFirst_eq_some_iff.mp split
      have noSep := noSep_of_isFirstSep none
      rw [Parts.isFirstSep, Bool.or_eq_true, beq_iff_eq, beq_iff_eq] at isSep
      rcases isSep with rfl | rfl
      · cases splitUser : cut 64 after with
        | none => exact ⟨_, .nickUser noSep (cut_eq_none_iff.mp splitUser)⟩
        | some pieces =>
            obtain ⟨user, text⟩ := pieces
            obtain ⟨rfl, noHost⟩ := cut_eq_some_iff.mp splitUser
            obtain ⟨host, real, part⟩ := exists_hostPart text
            exact ⟨_, .nickUserHost noSep noHost part⟩
      · obtain ⟨host, real, part⟩ := exists_hostPart after
        exact ⟨_, .userHost noSep part⟩

theorem HostPart.splitReal_eq {text host real : Str} (part : HostPart text host real)
    (nick user : Str) : Parts.splitReal ⟨nick, user, text, []⟩ = ⟨nick, user, host, real⟩ := by
  cases part with
  | plain noReal => simp [Parts.splitReal, cut_eq_none noReal]
  | real noReal => simp [Parts.splitReal, cut_append noReal]

/-- The constructor reads a mask as the grammar does, which reads it in one way
only. -/
theorem MaskReads.eq_split {mask : Str} {parts : Parts} (reads : MaskReads mask parts) :
    parts = (Parts.split mask).splitReal := by
  cases reads with
  | nick noSep noHost =>
      have uncut := splitFirst_eq_none_iff.mpr (isFirstSep_eq_false noSep)
      simp only [Parts.split, uncut]
      rw [if_pos noHost]
      rfl
  | host noSep isHost part =>
      have uncut := splitFirst_eq_none_iff.mpr (isFirstSep_eq_false noSep)
      have notNick : ¬(46 ∉ mask ∧ 58 ∉ mask) := by
        rwa [not_and_or, not_not, not_not]
      simp only [Parts.split, uncut]
      rw [if_neg notNick, part.splitReal_eq]
  | @nickUser nick user noSep noHost =>
      have split : splitFirst Parts.isFirstSep (nick ++ 33 :: user) = some (nick, 33, user) :=
        splitFirst_append (isFirstSep_eq_false noSep) rfl
      simp only [Parts.split, split, cut_eq_none noHost]
      rfl
  | @nickUserHost nick user text _ _ noSep noHost part =>
      have split : splitFirst Parts.isFirstSep (nick ++ 33 :: (user ++ 64 :: text)) =
          some (nick, 33, user ++ 64 :: text) :=
        splitFirst_append (isFirstSep_eq_false noSep) rfl
      simp only [Parts.split, split, cut_append noHost]
      rw [if_pos trivial, part.splitReal_eq]
  | @userHost user text _ _ noSep part =>
      have split : splitFirst Parts.isFirstSep (user ++ 64 :: text) = some (user, 64, text) :=
        splitFirst_append (isFirstSep_eq_false noSep) rfl
      simp only [Parts.split, split]
      rw [if_neg (by decide), part.splitReal_eq]

/-! ## Naming a user -/

section Naming

variable (casemap : Casemap) (lib : Inet)

/-- A part matches when it is missing, or all stars, or a glob that matches one
of the texts it is compared with. -/
def PartMatches (part : Str) (texts : List Str) : Prop :=
  AllStars part ∨ ∃ text ∈ texts, globMatch casemap text part = true

/-- The texts a host glob is compared with. -/
def User.hosts (u : User) : List Str :=
  [u.getDisplayedHost, u.getCloakedHost, u.host, u.ip.addr lib]

/-- A host part matches as a range when it is one, and as a glob otherwise. -/
def HostMatches (host : Str) (u : User) : Prop :=
  match hostRange casemap lib host with
  | some (address, len) => SharesPrefix address u.ip len
  | none => PartMatches casemap host (u.hosts lib)

/-- The parts of a mask match the user. -/
structure Names (parts : Parts) (u : User) : Prop where
  nick : PartMatches casemap parts.nick [u.nick]
  user : PartMatches casemap parts.user [u.getVIdent, u.getIdent]
  host : HostMatches casemap lib parts.host u
  real : PartMatches casemap parts.real [u.realname]

/-- The mask, read by the grammar, names the user. -/
def MaskNames (mask : Str) (u : User) : Prop :=
  ∃ parts, MaskReads mask parts ∧ Names casemap lib parts u

/-- The range of a host part is taken for something else.  At length zero the
text of the address is compared as a glob; from length 256 on only the length
modulo 256 counts. -/
def MisreadRange (host : Str) (u : User) : Prop :=
  ∃ address len, hostRange casemap lib host = some (address, len) ∧
    if len = 0 then
      ¬(SharesPrefix address u.ip 0 ↔ address.addr lib = [] ∨
        ∃ text ∈ u.hosts lib, globMatch casemap text (address.addr lib) = true)
    else SharesPrefix address u.ip (len % 256) ∧ ¬SharesPrefix address u.ip len

/-- `inet_pton` reads back what `inet_ntop` writes for the address of a range. -/
def ReadsBack (host : Str) : Prop :=
  ∀ address len, hostRange casemap lib host = some (address, len) →
    Sockaddrs.pton lib (textFamily (address.addr lib)) (address.addr lib) = address

end Naming

/-! ## What the code decides -/

section Decided

variable {casemap : Casemap} {lib : Inet}

theorem clearStars_of_allStars {part : Str} (stars : AllStars part) : clearStars part = [] :=
  if_pos stars

theorem clearStars_of_not_allStars {part : Str} (stars : ¬AllStars part) :
    clearStars part = part :=
  if_neg stars

theorem not_allStars_nil {part : Str} (stars : ¬AllStars part) : part ≠ [] := by
  rintro rfl
  exact stars fun c mem => absurd mem List.not_mem_nil

/-- What a part does not refuse. -/
theorem refuses_eq_false_iff {part : Str} {texts : List Str} :
    Entry.refuses casemap part texts = false ↔
      part = [] ∨ ∃ text ∈ texts, globMatch casemap text part = true := by
  rw [or_iff_not_imp_left]
  simp [Entry.refuses]

/-- A cleared part restricts nothing, and any other part is compared as it is. -/
theorem refuses_clearStars {part : Str} {texts : List Str} :
    Entry.refuses casemap (clearStars part) texts = false ↔ PartMatches casemap part texts := by
  rw [refuses_eq_false_iff]
  by_cases stars : AllStars part
  · simp [PartMatches, stars, clearStars_of_allStars stars]
  · simp [PartMatches, stars, clearStars_of_not_allStars stars, not_allStars_nil stars]

/-- All stars are no range. -/
theorem hostRange_clearStars (host : Str) :
    hostRange casemap lib (clearStars host) = hostRange casemap lib host := by
  by_cases stars : AllStars host
  · have noSlash : 47 ∉ host := fun mem => absurd (stars 47 mem) (by decide)
    simp [clearStars_of_allStars stars, hostRange, splitAtLast, noSlash]
  · rw [clearStars_of_not_allStars stars]

theorem hostRange_lt {host : Str} {address : Sockaddrs} {len : Nat}
    (range : hostRange casemap lib host = some (address, len)) : len < 2 ^ 16 := by
  unfold hostRange at range
  split at range
  · contradiction
  · simp only at range
    split at range
    · rename_i converted
      split at range
      · cases range
        exact Text.Convert.tryConvertUnsigned_lt converted
      · contradiction
    · contradiction

/-- The verdict of `Entry::Matches` on the host part. -/
def HostAccepted (casemap : Casemap) (lib : Inet) (host : Str) (u : User) : Prop :=
  match hostRange casemap lib host with
  | some (address, len) =>
      if len = 0 then
        address.addr lib = [] ∨ ∃ text ∈ u.hosts lib,
          globMatch casemap text (address.addr lib) = true
      else SharesPrefix address u.ip (len % 256)
  | none => PartMatches casemap host (u.hosts lib)

/-- A stored range is compared as the length modulo 256. -/
theorem matchAddr_textLen_iff {host : Str} {address : Sockaddrs} {len : Nat} (other : Sockaddrs)
    (readsBack : Sockaddrs.pton lib (textFamily host) host = address) :
    (Cidr.build lib (.textLen host (UInt8.ofNat len))).matchAddr other = true ↔
      SharesPrefix address other (len % 256) := by
  rw [Cidr.matchAddr_iff, Cidr.cidrLen_build]
  have narrowed : (Source.textLen host (UInt8.ofNat len)).length % 256 = len % 256 := by
    simp [Source.length]
  rw [narrowed]
  simp [Cidr.build, readsBack]

theorem ofNat_eq_zero_iff {len : Nat} (bound : len < 2 ^ 16) : UInt16.ofNat len = 0 ↔ len = 0 := by
  rw [← UInt16.toNat_inj, UInt16.toNat_ofNat', Nat.mod_eq_of_lt bound]
  rfl

/-- The entry that a mask without a range becomes. -/
theorem build_of_hostRange_none {mask : Str} {parts : Parts} (reads : MaskReads mask parts)
    (range : hostRange casemap lib parts.host = none) (name : Str) :
    Entry.build casemap lib mask name true =
      { name := name, mask := mask, cidrLen := 0, family := none, nick := clearStars parts.nick,
        user := clearStars parts.user, host := clearStars parts.host,
        real := clearStars parts.real } := by
  simp [Entry.build, ← reads.eq_split, hostRange_clearStars, range]

/-- The entry that a mask with a range becomes. -/
theorem build_of_hostRange_some {mask : Str} {parts : Parts} (reads : MaskReads mask parts)
    {address : Sockaddrs} {len : Nat}
    (range : hostRange casemap lib parts.host = some (address, len)) (name : Str) :
    Entry.build casemap lib mask name true =
      { name := name, mask := mask, cidrLen := UInt16.ofNat len, family := address.family,
        nick := clearStars parts.nick, user := clearStars parts.user, host := address.addr lib,
        real := clearStars parts.real } := by
  simp [Entry.build, ← reads.eq_split, hostRange_clearStars, range]

/-- `Entry::Matches` accepts a user when it accepts every part of the mask. -/
theorem matchesUser_build_iff {extbans : Entry.Extbans} {mask : Str} {parts : Parts}
    (reads : MaskReads mask parts) (name : Str) (u : User)
    (notExtban : extbans.isExtbanValid mask = false)
    (readsBack : ReadsBack casemap lib parts.host) :
    Entry.matchesUser casemap lib extbans (Entry.build casemap lib mask name true) u true = true ↔
      PartMatches casemap parts.nick [u.nick] ∧
        PartMatches casemap parts.user [u.getVIdent, u.getIdent] ∧
          HostAccepted casemap lib parts.host u ∧
            PartMatches casemap parts.real [u.realname] := by
  cases range : hostRange casemap lib parts.host with
  | none =>
      rw [build_of_hostRange_none reads range]
      simp [Entry.matchesUser, notExtban, refuses_clearStars, HostAccepted, range, User.hosts,
        and_assoc]
  | some found =>
      obtain ⟨address, len⟩ := found
      have compared := @matchAddr_textLen_iff lib _ _ len u.ip (readsBack address len range)
      have zero := ofNat_eq_zero_iff (hostRange_lt range)
      rw [build_of_hostRange_some reads range]
      by_cases noRange : len = 0
      · have asGlob := @refuses_eq_false_iff casemap (address.addr lib)
        simp [Entry.matchesUser, notExtban, refuses_clearStars, asGlob, HostAccepted, range,
          User.hosts, and_assoc, noRange]
      · simp [Entry.matchesUser, notExtban, refuses_clearStars, HostAccepted, range, and_assoc,
          zero, noRange, compared]

end Decided

/-! ## Where the two agree -/

/-- A shared prefix contains the shorter ones. -/
theorem sharesPrefix_of_le {ip other : Sockaddrs} {short long : Nat} (le : short ≤ long)
    (shared : SharesPrefix ip other long) : SharesPrefix ip other short := by
  obtain ⟨family, ipFamily, otherFamily, equal⟩ := shared
  have shorter : min short family.width ≤ min long family.width := by omega
  have front := congrArg (List.take (min short family.width)) equal
  rw [List.take_take, List.take_take, Nat.min_eq_left shorter] at front
  exact ⟨family, ipFamily, otherFamily, front⟩

section Agreement

variable {casemap : Casemap} {lib : Inet}

/-- The verdict on the host part is wrong exactly on a misread range. -/
theorem hostAccepted_iff_hostMatches_iff (host : Str) (u : User) :
    (HostAccepted casemap lib host u ↔ HostMatches casemap lib host u) ↔
      ¬MisreadRange casemap lib host u := by
  cases range : hostRange casemap lib host with
  | none => simp [HostAccepted, HostMatches, MisreadRange, range]
  | some found =>
      obtain ⟨address, len⟩ := found
      simp only [HostAccepted, HostMatches, MisreadRange, range, Option.some.injEq, Prod.mk.injEq]
      by_cases noRange : len = 0
      · subst noRange
        constructor
        · rintro agree ⟨_, _, ⟨rfl, rfl⟩, misread⟩
          exact misread agree.symm
        · intro notMisread
          by_contra differ
          exact notMisread ⟨address, 0, ⟨rfl, rfl⟩, fun same => differ same.symm⟩
      · have shorter := @sharesPrefix_of_le address u.ip _ _ (Nat.mod_le len 256)
        simp only [if_neg noRange]
        constructor
        · rintro agree ⟨_, _, ⟨rfl, rfl⟩, misread⟩
          rw [if_neg noRange] at misread
          exact misread.2 (agree.mp misread.1)
        · intro notMisread
          refine ⟨fun short => ?_, shorter⟩
          by_contra notLong
          refine notMisread ⟨address, len, ⟨rfl, rfl⟩, ?_⟩
          rw [if_neg noRange]
          exact ⟨short, notLong⟩

/-- `Entry(mask).Matches(u, true)` holds exactly when the mask names the user,
unless its range is misread and no other part refuses the user. -/
theorem matchesUser_iff_maskNames_iff (extbans : Entry.Extbans) (mask name : Str) (u : User)
    (notExtban : extbans.isExtbanValid mask = false)
    (readsBack : ∀ parts, MaskReads mask parts → ReadsBack casemap lib parts.host) :
    (Entry.matchesUser casemap lib extbans (Entry.build casemap lib mask name true) u true = true ↔
        MaskNames casemap lib mask u) ↔
      ∀ parts, MaskReads mask parts → MisreadRange casemap lib parts.host u →
        ¬PartMatches casemap parts.nick [u.nick] ∨
          ¬PartMatches casemap parts.user [u.getVIdent, u.getIdent] ∨
            ¬PartMatches casemap parts.real [u.realname] := by
  obtain ⟨parts, reads⟩ := exists_reads mask
  have only : ∀ {other}, MaskReads mask other → other = parts := fun otherReads =>
    otherReads.eq_split.trans reads.eq_split.symm
  have named : MaskNames casemap lib mask u ↔ Names casemap lib parts u := by
    constructor
    · rintro ⟨other, otherReads, names⟩
      exact only otherReads ▸ names
    · exact fun names => ⟨parts, reads, names⟩
  have hosts := @hostAccepted_iff_hostMatches_iff casemap lib parts.host u
  rw [matchesUser_build_iff reads name u notExtban (readsBack parts reads), named]
  constructor
  · intro agree other otherReads misread
    cases only otherReads
    by_contra rejects
    push Not at rejects
    obtain ⟨nick, user, real⟩ := rejects
    refine absurd misread (hosts.mp ⟨fun accepted => ?_, fun hostMatches => ?_⟩)
    · exact (agree.mp ⟨nick, user, accepted, real⟩).host
    · exact (agree.mpr ⟨nick, user, hostMatches, real⟩).2.2.1
  · intro condition
    constructor
    · rintro ⟨nick, user, accepted, real⟩
      have right : ¬MisreadRange casemap lib parts.host u := by
        intro misread
        rcases condition parts reads misread with no | no | no <;> contradiction
      exact ⟨nick, user, (hosts.mpr right).mp accepted, real⟩
    · rintro ⟨nick, user, hostMatches, real⟩
      have right : ¬MisreadRange casemap lib parts.host u := by
        intro misread
        rcases condition parts reads misread with no | no | no <;> contradiction
      exact ⟨nick, user, (hosts.mpr right).mpr hostMatches, real⟩

end Agreement

/-- A resolver that knows the addresses of a table. -/
def tableInet (table : List (Str × Addr4)) : Inet where
  pton4 address := (table.find? fun entry => entry.1 = address).map Prod.snd
  pton6 _ := none
  ntop4 address := (table.find? fun entry => entry.2 = address).map Prod.fst
  ntop6 _ := none

/-- Two addresses without a common bit in front. -/
def farAddresses : Inet :=
  tableInet [(ascii "1.2.3.4", #v[1, 2, 3, 4]), (ascii "200.9.9.9", #v[200, 9, 9, 9])]

/-- A protocol without extended bans. -/
def noExtbans : Entry.Extbans where
  isExtbanValid _ := false
  findMatches _ := none

/-- A user at the second address. -/
def farUser : User where
  nick := ascii "adam"
  ident := ascii "ident"
  vident := []
  host := ascii "adam.example"
  vhost := []
  chost := []
  cloak := false
  realname := ascii "Adam"
  ip := .inet #v[200, 9, 9, 9]

/-- The range of length zero names every IPv4 user, but it is compared as the
text of its address. -/
theorem not_matchesUser_iff_maskNames_zero :
    ¬(Entry.matchesUser .ascii farAddresses noExtbans
        (Entry.build .ascii farAddresses (ascii "*!*@1.2.3.4/0") [] true) farUser true = true ↔
      MaskNames .ascii farAddresses (ascii "*!*@1.2.3.4/0") farUser) := by
  intro agree
  have refused : Entry.matchesUser .ascii farAddresses noExtbans
      (Entry.build .ascii farAddresses (ascii "*!*@1.2.3.4/0") [] true) farUser true = false := by
    decide +kernel
  have reads : MaskReads (ascii "*!*@1.2.3.4/0") ⟨ascii "*", ascii "*", ascii "1.2.3.4/0", []⟩ :=
    @MaskReads.nickUserHost (ascii "*") (ascii "*") _ _ _ (by decide) (by decide)
      (.plain (by decide))
  have range : hostRange .ascii farAddresses (ascii "1.2.3.4/0") =
      some (.inet #v[1, 2, 3, 4], 0) := by
    decide +kernel
  have names : Names .ascii farAddresses ⟨ascii "*", ascii "*", ascii "1.2.3.4/0", []⟩ farUser :=
    { nick := .inl (by decide +kernel)
      user := .inl (by decide +kernel)
      host := by
        rw [HostMatches, range]
        exact ⟨.inet, rfl, rfl, rfl⟩
      real := .inl (by decide +kernel) }
  rw [agree.mpr ⟨_, reads, names⟩] at refused
  contradiction

/-- A range of length 8 names a user outside its network as little as it matches
him. -/
theorem matchesUser_iff_maskNames_eight :
    Entry.matchesUser .ascii farAddresses noExtbans
        (Entry.build .ascii farAddresses (ascii "*!*@1.2.3.4/8") [] true) farUser true = true ↔
      MaskNames .ascii farAddresses (ascii "*!*@1.2.3.4/8") farUser := by
  have reads : MaskReads (ascii "*!*@1.2.3.4/8") ⟨ascii "*", ascii "*", ascii "1.2.3.4/8", []⟩ :=
    @MaskReads.nickUserHost (ascii "*") (ascii "*") _ _ _ (by decide) (by decide)
      (.plain (by decide))
  have range : hostRange .ascii farAddresses (ascii "1.2.3.4/8") =
      some (.inet #v[1, 2, 3, 4], 8) := by
    decide +kernel
  have only : ∀ {parts}, MaskReads (ascii "*!*@1.2.3.4/8") parts → parts.host = ascii "1.2.3.4/8" :=
    fun otherReads => congrArg Parts.host (otherReads.eq_split.trans reads.eq_split.symm)
  refine (matchesUser_iff_maskNames_iff noExtbans _ [] farUser rfl ?_).mpr ?_
  · intro parts otherReads address len found
    rw [only otherReads, range] at found
    cases found
    decide +kernel
  · rintro parts otherReads ⟨address, len, found, misread⟩
    rw [only otherReads, range] at found
    cases found
    exact absurd misread.1 (fun shared => misread.2 shared)

end Anope.Mode
