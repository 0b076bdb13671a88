import Anope.Bridge.Links

/-!
# Message ids across a bridge

`IrcIdFor` and `RemoteIdFor`: a message that was posted to the remote network is known by its
link, and one that came from there by an id that carries the remote id.
-/

namespace Anope.Bridge

/-- `REMOTE_ID_PREFIX`. -/
def remoteIdPrefix : Str :=
  ascii "dc"

/-- `Relay::RemoteMsgId`. -/
def remoteMsgId (protocolPrefix remoteId : Str) : Str :=
  protocolPrefix ++ ascii "-" ++ remoteId

/-- `Relay::ParseRemoteMsgId`. -/
def parseRemoteMsgId (msgid protocolPrefix : Str) : Option Str :=
  let start := protocolPrefix ++ ascii "-"
  if msgid.length ≤ start.length ∨ ¬start <+: msgid then none
  else some (msgid.drop start.length)

/-- `IrcIdFor`. -/
def ircIdFor (links : Links) (remoteId : Str) : Str :=
  match links.byRemote remoteId with
  | some link => link.ircMsgid
  | none => remoteMsgId remoteIdPrefix remoteId

/-- `RemoteIdFor`. -/
def remoteIdFor (links : Links) (ircMsgid : Str) : Str :=
  match parseRemoteMsgId ircMsgid remoteIdPrefix with
  | some remoteId => remoteId
  | none =>
      match links.byIrc ircMsgid with
      | some link => link.remoteId
      | none => []

theorem parseRemoteMsgId_remoteMsgId (protocolPrefix : Str) {remoteId : Str}
    (nonempty : remoteId ≠ []) :
    parseRemoteMsgId (remoteMsgId protocolPrefix remoteId) protocolPrefix = some remoteId := by
  have longer : ¬(remoteMsgId protocolPrefix remoteId).length ≤
      (protocolPrefix ++ ascii "-").length := by
    have positive := List.length_pos_iff.mpr nonempty
    have length : (remoteMsgId protocolPrefix remoteId).length =
        (protocolPrefix ++ ascii "-").length + remoteId.length := List.length_append
    omega
  have starts : protocolPrefix ++ ascii "-" <+: remoteMsgId protocolPrefix remoteId :=
    List.prefix_append _ _
  rw [parseRemoteMsgId, if_neg (not_or.mpr ⟨longer, not_not_intro starts⟩), remoteMsgId,
    List.drop_left]

theorem parseRemoteMsgId_of_not_prefix {msgid protocolPrefix : Str}
    (foreign : ¬protocolPrefix ++ ascii "-" <+: msgid) :
    parseRemoteMsgId msgid protocolPrefix = none :=
  if_pos (Or.inr foreign)

/-- A link that is found by its remote id is found by its id on IRC, and carries the remote
id. -/
theorem Links.byIrc_of_byRemote {cap : Nat} {entries : List Link} {remoteId : Str} {link : Link}
    (found : ((new cap).run entries).byRemote remoteId = some link) :
    ((new cap).run entries).byIrc link.ircMsgid = some link ∧ link.remoteId = remoteId := by
  have named := (mirrors_run cap entries).named
  rcases (byRemote_eq_some_iff named).mp found with ⟨leads, held⟩
  rcases indexed_run cap entries remoteId link.ircMsgid leads with ⟨other, isOther, carries, _⟩
  cases isOther.symm.trans held
  exact ⟨held, carries⟩

/-- Where no link has an id of the reserved form, a remote id comes back from IRC. -/
theorem remoteIdFor_ircIdFor (cap : Nat) (entries : List Link)
    (unreserved : ∀ key link, ((Links.new cap).run entries).byIrc key = some link →
      ¬ascii "dc-" <+: link.ircMsgid)
    {remoteId : Str} (nonempty : remoteId ≠ []) :
    remoteIdFor ((Links.new cap).run entries) (ircIdFor ((Links.new cap).run entries) remoteId) =
      remoteId := by
  rw [ircIdFor]
  cases found : ((Links.new cap).run entries).byRemote remoteId with
  | none =>
      change remoteIdFor _ (remoteMsgId remoteIdPrefix remoteId) = remoteId
      rw [remoteIdFor, parseRemoteMsgId_remoteMsgId remoteIdPrefix nonempty]
  | some link =>
      rcases Links.byIrc_of_byRemote found with ⟨held, carries⟩
      have foreign : ¬remoteIdPrefix ++ ascii "-" <+: link.ircMsgid := unreserved _ link held
      change remoteIdFor _ link.ircMsgid = remoteId
      rw [remoteIdFor, parseRemoteMsgId_of_not_prefix foreign, held]
      exact carries

theorem remoteIdFor_ircIdFor_oneLink :
    remoteIdFor ((Links.new 2).run [Links.linkOf (ascii "i1") (ascii "r1")])
        (ircIdFor ((Links.new 2).run [Links.linkOf (ascii "i1") (ascii "r1")]) (ascii "r1")) =
      ascii "r1" := by
  refine remoteIdFor_ircIdFor 2 _ (fun key link found => ?_) (by decide)
  have named := (Links.mirrors_run 2 [Links.linkOf (ascii "i1") (ascii "r1")]).named key link found
  have held : ((Links.new 2).run [Links.linkOf (ascii "i1") (ascii "r1")]).ircIndex.keys =
      [ascii "i1"] := by
    decide +kernel
  have mem : key ∈ ((Links.new 2).run [Links.linkOf (ascii "i1") (ascii "r1")]).ircIndex.keys :=
    AList.mem_keys.mp (AList.lookup_isSome.mp (Option.isSome_iff_exists.mpr ⟨link, found⟩))
  rw [held, List.mem_singleton] at mem
  rw [named, mem]
  decide +kernel

end Anope.Bridge
