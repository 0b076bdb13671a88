import Anope.Bridge.History

/-!
# The links of a bridge

`Relay::Links`: the messages that were posted to a remote network, found by the id that they
have on IRC and by the one that the remote network gave them.
-/

namespace Anope.Bridge

open Library

/-- `Links::Entry`. -/
structure Link where
  ircMsgid : Str
  remoteId : Str
  remoteChannel : Str
  remoteThread : Str
  author : Str
  excerpt : Str
  deriving DecidableEq, Repr

/-- `Links`. -/
structure Links where
  capacity : Nat
  /-- `by_irc`. -/
  ircIndex : AList fun _ : Str => Link
  /-- `by_remote`, which has the id on IRC. -/
  remoteIndex : AList fun _ : Str => Str
  order : List Str

namespace Links

/-- The constructor. -/
def new (cap : Nat) : Links where
  capacity := if cap = 0 then 1 else cap
  ircIndex := ∅
  remoteIndex := ∅
  order := []

/-- `Drop`. -/
def drop (links : Links) (ircMsgid : Str) : Links :=
  match links.ircIndex.lookup ircMsgid with
  | none => links
  | some link =>
      { links with
        remoteIndex := links.remoteIndex.erase link.remoteId
        ircIndex := links.ircIndex.erase ircMsgid }

/-- The eviction at the end of `Remember`, with what is left of the queue. -/
def evict : List Str → Links → Links
  | [], links => { links with order := [] }
  | key :: order, links =>
      if links.capacity < (key :: order).length then evict order (links.drop key)
      else { links with order := key :: order }

/-- An entry goes into both maps. -/
def enter (links : Links) (entry : Link) : Links :=
  { links with
    remoteIndex := links.remoteIndex.insert entry.remoteId entry.ircMsgid
    ircIndex := links.ircIndex.insert entry.ircMsgid entry }

/-- `Remember`. -/
def remember (links : Links) (entry : Link) : Links :=
  if entry.ircMsgid ∈ links.ircIndex then (links.drop entry.ircMsgid).enter entry
  else evict (links.order ++ [entry.ircMsgid]) (links.enter entry)

/-- `ByIrc`. -/
def byIrc (links : Links) (ircMsgid : Str) : Option Link :=
  links.ircIndex.lookup ircMsgid

/-- `ByRemote`. -/
def byRemote (links : Links) (remoteId : Str) : Option Link :=
  (links.remoteIndex.lookup remoteId).bind links.byIrc

/-- `Size`. -/
def size (links : Links) : Nat :=
  links.ircIndex.keys.length

/-- What entries that are remembered make of the links. -/
def run (links : Links) (entries : List Link) : Links :=
  entries.foldl remember links

/-! ## Dropping and entering -/

section Lookup

variable {links : Links} {link entry : Link} {key : Str}

theorem drop_of_byIrc (found : links.byIrc key = some link) :
    links.drop key =
      { links with
        remoteIndex := links.remoteIndex.erase link.remoteId
        ircIndex := links.ircIndex.erase key } := by
  have lookup : links.ircIndex.lookup key = some link := found
  rw [drop, lookup]

theorem drop_of_missing (missing : links.byIrc key = none) : links.drop key = links := by
  have lookup : links.ircIndex.lookup key = none := missing
  rw [drop, lookup]

theorem byIrc_drop (links : Links) (key other : Str) :
    (links.drop key).byIrc other = if other = key then none else links.byIrc other := by
  cases found : links.byIrc key with
  | none =>
      rw [drop_of_missing found]
      split
      · rename_i same
        rw [same, found]
      · rfl
  | some link =>
      rw [drop_of_byIrc found]
      by_cases same : other = key
      · rw [if_pos same, same]
        exact AList.lookup_erase key links.ircIndex
      · rw [if_neg same]
        exact AList.lookup_erase_ne same

theorem remoteIndex_drop (found : links.byIrc key = some link) (remoteId : Str) :
    (links.drop key).remoteIndex.lookup remoteId =
      if remoteId = link.remoteId then none else links.remoteIndex.lookup remoteId := by
  rw [drop_of_byIrc found]
  by_cases same : remoteId = link.remoteId
  · rw [if_pos same, same]
    exact AList.lookup_erase link.remoteId links.remoteIndex
  · rw [if_neg same]
    exact AList.lookup_erase_ne same

theorem byIrc_enter (links : Links) (entry : Link) (key : Str) :
    (links.enter entry).byIrc key =
      if key = entry.ircMsgid then some entry else links.byIrc key := by
  by_cases same : key = entry.ircMsgid
  · rw [if_pos same, same]
    exact AList.lookup_insert links.ircIndex
  · rw [if_neg same]
    exact AList.lookup_insert_ne same

theorem remoteIndex_enter (links : Links) (entry : Link) (remoteId : Str) :
    (links.enter entry).remoteIndex.lookup remoteId =
      if remoteId = entry.remoteId then some entry.ircMsgid
      else links.remoteIndex.lookup remoteId := by
  by_cases same : remoteId = entry.remoteId
  · rw [if_pos same, same]
    exact AList.lookup_insert links.remoteIndex
  · rw [if_neg same]
    exact AList.lookup_insert_ne same

theorem capacity_drop (links : Links) (key : Str) : (links.drop key).capacity = links.capacity := by
  rw [drop]
  split <;> rfl

theorem order_drop (links : Links) (key : Str) : (links.drop key).order = links.order := by
  rw [drop]
  split <;> rfl

theorem evict_of_le {order : List Str} (room : order.length ≤ links.capacity) :
    evict order links = { links with order := order } := by
  cases order with
  | nil => rfl
  | cons key order => rw [evict, if_neg (Nat.not_lt.mpr room)]

theorem evict_of_full {order : List Str} (full : (key :: order).length = links.capacity + 1) :
    evict (key :: order) links = { links.drop key with order := order } := by
  have rest : order.length = (links.drop key).capacity :=
    (Nat.succ.inj full).trans (links.capacity_drop key).symm
  rw [evict, if_pos (full ▸ Nat.lt_succ_self _), evict_of_le (Nat.le_of_eq rest)]

end Lookup

/-! ## The map that the links stand for -/

/-- What is remembered for an entry. -/
def asCall (entry : Link) : Fifo.Call Str Link :=
  .remember entry.ircMsgid entry

/-- The links have the keys of a bounded map, in their order, and its values. -/
structure Mirrors (links : Links) (held : List (Fifo.Held Str Link)) : Prop where
  order : links.order = held.map Fifo.Held.key
  byIrc : ∀ key, links.byIrc key = Fifo.find key held
  keys : links.ircIndex.keys.Perm links.order
  named : ∀ key link, links.byIrc key = some link → link.ircMsgid = key

/-- What `Remember` drops: the entry that it replaces, or the oldest one. -/
inductive Drops (links : Links) (entry : Link) : Link → Prop where
  | replaced {old : Link} (found : links.byIrc entry.ircMsgid = some old) : Drops links entry old
  | evicted {oldest : Link} {younger : List Str} (new : links.byIrc entry.ircMsgid = none)
      (full : links.size = links.capacity) (first : links.order = oldest.ircMsgid :: younger)
      (found : links.byIrc oldest.ircMsgid = some oldest) : Drops links entry oldest

section Remember

variable {links : Links} {held : List (Fifo.Held Str Link)} {now : Nat} {entry : Link}

theorem Mirrors.size (mirrors : links.Mirrors held) : links.size = held.length := by
  rw [Links.size, mirrors.keys.length_eq, mirrors.order, List.length_map]

theorem Mirrors.mem_iff (mirrors : links.Mirrors held) {key : Str} :
    key ∈ links.ircIndex ↔ key ∈ held.map Fifo.Held.key := by
  rw [← mirrors.order, AList.mem_keys]
  exact mirrors.keys.mem_iff

/-- The three things that `Remember` can do. -/
theorem Mirrors.remember_cases (mirrors : links.Mirrors held) (positive : 0 < links.capacity)
    (sound : Fifo.Sound links.capacity now held) (entry : Link) :
    (∃ old, links.byIrc entry.ircMsgid = some old ∧
        links.remember entry = (links.drop entry.ircMsgid).enter entry) ∨
      (links.byIrc entry.ircMsgid = none ∧ held.length < links.capacity ∧
        links.remember entry =
          { links.enter entry with order := links.order ++ [entry.ircMsgid] }) ∨
      ∃ oldest younger link, links.byIrc entry.ircMsgid = none ∧ held = oldest :: younger ∧
        held.length = links.capacity ∧ links.byIrc oldest.key = some link ∧
        oldest.key ≠ entry.ircMsgid ∧
        links.remember entry = { (links.enter entry).drop oldest.key with
          order := younger.map Fifo.Held.key ++ [entry.ircMsgid] } := by
  have length : links.order.length = held.length := by rw [mirrors.order, List.length_map]
  rw [remember]
  cases found : links.byIrc entry.ircMsgid with
  | some old =>
      have known : entry.ircMsgid ∈ links.ircIndex :=
        AList.lookup_isSome.mp (Option.isSome_iff_exists.mpr ⟨old, found⟩)
      exact .inl ⟨old, rfl, if_pos known⟩
  | none =>
      have new : entry.ircMsgid ∉ links.ircIndex := AList.lookup_eq_none.mp found
      rw [if_neg new]
      rcases Fifo.room_or_full positive sound.bounded with room | ⟨oldest, younger, rfl, full⟩
      · refine .inr (.inl ⟨rfl, room, evict_of_le ?_⟩)
        rw [List.length_append, length]
        exact room
      · have first : oldest.key ∈ links.ircIndex := mirrors.mem_iff.mpr List.mem_cons_self
        obtain ⟨link, isLink⟩ := Option.isSome_iff_exists.mp (AList.lookup_isSome.mpr first)
        have tooLong : (oldest.key :: (younger.map Fifo.Held.key ++ [entry.ircMsgid])).length =
            (links.enter entry).capacity + 1 := by
          rw [List.length_cons, List.length_append, List.length_map, List.length_singleton]
          exact congrArg Nat.succ full
        refine .inr (.inr ⟨oldest, younger, link, rfl, rfl, full, isLink, ?_, ?_⟩)
        · exact fun same => new (same ▸ first)
        · rw [mirrors.order, List.map_cons, List.cons_append, evict_of_full tooLong]

theorem capacity_remember (links : Links) (entry : Link) :
    (links.remember entry).capacity = links.capacity := by
  have evicts : ∀ (order : List Str) (links : Links),
      (evict order links).capacity = links.capacity := by
    intro order
    induction order with
    | nil => exact fun _ => rfl
    | cons key order ih =>
        intro links
        rw [evict]
        split
        · rw [ih, capacity_drop]
        · rfl
  rw [remember]
  split
  · exact links.capacity_drop _
  · exact evicts _ _

/-- What is found once an entry is in has the key that it is found by. -/
theorem Mirrors.named_of_enter (mirrors : links.Mirrors held) {key : Str} {link : Link}
    (isLink : (if key = entry.ircMsgid then some entry else links.byIrc key) = some link) :
    link.ircMsgid = key := by
  split at isLink
  · rename_i same
    cases isLink
    exact same.symm
  · exact mirrors.named key link isLink

/-- The entry replaces another one. -/
theorem Mirrors.replace (mirrors : links.Mirrors held) {old : Link}
    (found : links.byIrc entry.ircMsgid = some old)
    (is : links.remember entry = (links.drop entry.ircMsgid).enter entry) :
    (links.remember entry).Mirrors (Fifo.step links.capacity now held (asCall entry)) := by
  have known : entry.ircMsgid ∈ links.ircIndex :=
    AList.lookup_isSome.mp (Option.isSome_iff_exists.mpr ⟨old, found⟩)
  have lookup : ∀ key, (links.remember entry).byIrc key =
      if key = entry.ircMsgid then some entry else links.byIrc key := by
    intro key
    rw [is, byIrc_enter, byIrc_drop]
    split <;> rfl
  rw [asCall, Fifo.step, if_pos (mirrors.mem_iff.mp known)]
  refine ⟨?_, fun key => ?_, ?_, fun key link isLink => ?_⟩
  · rw [is, List.map_map]
    refine (links.order_drop _).trans (mirrors.order.trans
      (List.map_congr_left fun element _ => ?_))
    rw [Function.comp_apply]
    split <;> rfl
  · rw [lookup, Fifo.find_map_set, ← mirrors.byIrc key]
    split
    · rename_i same
      rw [same, found]
      rfl
    · rfl
  · have erased : (links.drop entry.ircMsgid).ircIndex = links.ircIndex.erase entry.ircMsgid := by
      rw [drop_of_byIrc found]
    have fresh : entry.ircMsgid ∉ links.ircIndex.erase entry.ircMsgid := fun mem =>
      (AList.mem_erase.mp mem).1 rfl
    have keys : ((links.drop entry.ircMsgid).enter entry).ircIndex.keys =
        entry.ircMsgid :: (links.ircIndex.erase entry.ircMsgid).keys := by
      rw [enter, erased, Table.keys_insert_of_notMem fresh]
    rw [is, keys]
    exact (Table.perm_keys_erase known).trans
      (mirrors.keys.trans (.of_eq (links.order_drop _).symm))
  · exact mirrors.named_of_enter ((lookup key).symm.trans isLink)

/-- There is room for the entry. -/
theorem Mirrors.append (mirrors : links.Mirrors held) (sound : Fifo.Sound links.capacity now held)
    (missing : links.byIrc entry.ircMsgid = none) (room : held.length < links.capacity) :
    Mirrors { links.enter entry with order := links.order ++ [entry.ircMsgid] }
      (Fifo.step links.capacity now held (asCall entry)) := by
  have new : entry.ircMsgid ∉ links.ircIndex := AList.lookup_eq_none.mp missing
  have absent : entry.ircMsgid ∉ held.map Fifo.Held.key := fun mem => new (mirrors.mem_iff.mpr mem)
  have entered : ∀ key, (links.enter entry).ircIndex.lookup key =
      if key = entry.ircMsgid then some entry else links.byIrc key := links.byIrc_enter entry
  rw [asCall, Fifo.step_remember_of_room sound absent room]
  refine ⟨?_, fun key => ?_, ?_, fun key link isLink => ?_⟩
  · rw [mirrors.order, List.map_append, List.map_singleton]
  · rw [Fifo.find_concat absent, ← mirrors.byIrc key]
    exact entered key
  · have keys : (links.enter entry).ircIndex.keys = entry.ircMsgid :: links.ircIndex.keys :=
      Table.keys_insert_of_notMem new entry
    rw [keys]
    exact (mirrors.keys.cons _).trans (List.perm_append_singleton _ _).symm
  · exact mirrors.named_of_enter ((entered key).symm.trans isLink)

/-- The entry takes the place of the oldest one. -/
theorem Mirrors.replaceOldest {oldest : Fifo.Held Str Link} {younger : List (Fifo.Held Str Link)}
    (mirrors : links.Mirrors (oldest :: younger))
    (sound : Fifo.Sound links.capacity now (oldest :: younger)) {link : Link}
    (missing : links.byIrc entry.ircMsgid = none)
    (full : (oldest :: younger).length = links.capacity)
    (found : links.byIrc oldest.key = some link) (differs : oldest.key ≠ entry.ircMsgid)
    (is : links.remember entry = { (links.enter entry).drop oldest.key with
      order := younger.map Fifo.Held.key ++ [entry.ircMsgid] }) :
    (links.remember entry).Mirrors
      (Fifo.step links.capacity now (oldest :: younger) (asCall entry)) := by
  have new : entry.ircMsgid ∉ links.ircIndex := AList.lookup_eq_none.mp missing
  have absent : entry.ircMsgid ∉ (oldest :: younger).map Fifo.Held.key :=
    fun mem => new (mirrors.mem_iff.mpr mem)
  have young : entry.ircMsgid ∉ younger.map Fifo.Held.key :=
    fun mem => absent (List.mem_cons_of_mem _ mem)
  have enteredOldest : (links.enter entry).byIrc oldest.key = some link := by
    rw [byIrc_enter, if_neg differs, found]
  have lookup : ∀ key, (links.remember entry).byIrc key =
      if key = oldest.key then none
      else if key = entry.ircMsgid then some entry else links.byIrc key := by
    intro key
    rw [is, ← byIrc_enter]
    exact byIrc_drop _ _ _
  rw [asCall, Fifo.step_remember_of_full sound absent full]
  refine ⟨?_, fun key => ?_, ?_, fun key other isLink => ?_⟩
  · rw [is, List.map_append, List.map_singleton]
  · rw [lookup, Fifo.find_concat young, Fifo.find_tail sound.distinct, ← mirrors.byIrc key]
    split
    · rename_i isOldest
      rw [if_neg (isOldest ▸ differs)]
    · rfl
  · have erased : (links.remember entry).ircIndex =
        (links.ircIndex.insert entry.ircMsgid entry).erase oldest.key := by
      rw [is, drop_of_byIrc enteredOldest]
      rfl
    have others : (oldest.key :: younger.map Fifo.Held.key).filter
        (fun key => decide (key ≠ oldest.key)) = younger.map Fifo.Held.key := by
      rw [List.filter_cons_of_neg (by simp), List.filter_eq_self]
      rintro key mem
      refine decide_eq_true ?_
      rintro rfl
      exact (List.nodup_cons.mp sound.distinct).1 mem
    have order : links.order = oldest.key :: younger.map Fifo.Held.key := mirrors.order
    have keys := mirrors.keys.filter fun key => decide (key ≠ oldest.key)
    rw [order, others] at keys
    rw [erased, is, Table.keys_erase_eq_filter, Table.keys_insert_of_notMem new,
      List.filter_cons_of_pos (by simpa using differs.symm)]
    exact (keys.cons _).trans (List.perm_append_singleton _ _).symm
  · rw [lookup] at isLink
    split at isLink
    · cases isLink
    · exact mirrors.named_of_enter isLink

/-- `Remember` does to the links what it does to the map. -/
theorem Mirrors.remember (mirrors : links.Mirrors held) (positive : 0 < links.capacity)
    (sound : Fifo.Sound links.capacity now held) (entry : Link) :
    (links.remember entry).Mirrors (Fifo.step links.capacity now held (asCall entry)) := by
  rcases mirrors.remember_cases positive sound entry with
    ⟨old, found, is⟩ | ⟨missing, room, is⟩ |
      ⟨oldest, younger, link, missing, rfl, full, found, differs, is⟩
  · exact mirrors.replace found is
  · rw [is]
    exact mirrors.append sound missing room
  · exact mirrors.replaceOldest sound missing full found differs is

end Remember

/-! ## The two indexes -/

/-- What `Remember` does to the two indexes. -/
inductive Remembers (links : Links) (entry : Link) (next : Links) : Prop where
  | replaced {old : Link} (found : links.byIrc entry.ircMsgid = some old)
      (byIrc : ∀ key, next.byIrc key =
        if key = entry.ircMsgid then some entry else links.byIrc key)
      (remote : ∀ remoteId, next.remoteIndex.lookup remoteId =
        if remoteId = entry.remoteId then some entry.ircMsgid
        else if remoteId = old.remoteId then none else links.remoteIndex.lookup remoteId)
  | added (new : links.byIrc entry.ircMsgid = none) (room : links.size < links.capacity)
      (byIrc : ∀ key, next.byIrc key =
        if key = entry.ircMsgid then some entry else links.byIrc key)
      (remote : ∀ remoteId, next.remoteIndex.lookup remoteId =
        if remoteId = entry.remoteId then some entry.ircMsgid
        else links.remoteIndex.lookup remoteId)
  | evicted {oldest : Link} {younger : List Str} (new : links.byIrc entry.ircMsgid = none)
      (full : links.size = links.capacity) (first : links.order = oldest.ircMsgid :: younger)
      (found : links.byIrc oldest.ircMsgid = some oldest)
      (byIrc : ∀ key, next.byIrc key =
        if key = oldest.ircMsgid then none
        else if key = entry.ircMsgid then some entry else links.byIrc key)
      (remote : ∀ remoteId, next.remoteIndex.lookup remoteId =
        if remoteId = oldest.remoteId then none
        else if remoteId = entry.remoteId then some entry.ircMsgid
        else links.remoteIndex.lookup remoteId)

/-- The entry that was last remembered with a remote id. -/
def lastWithRemote (remoteId : Str) (entries : List Link) : Option Link :=
  (entries.filter fun entry => entry.remoteId = remoteId).getLast?

/-- The remote index leads to entries that are held, and were the last with their ids. -/
def Indexed (entries : List Link) (links : Links) : Prop :=
  ∀ remoteId key, links.remoteIndex.lookup remoteId = some key →
    ∃ link, links.byIrc key = some link ∧ link.remoteId = remoteId ∧
      lastWithRemote remoteId entries = some link

/-- An entry that is held and was the last with its remote id is found by it. -/
def Complete (entries : List Link) (links : Links) : Prop :=
  ∀ link, links.byIrc link.ircMsgid = some link →
    lastWithRemote link.remoteId entries = some link → links.byRemote link.remoteId = some link

/-- `Remember` drops an entry whose remote id leads to another one: the new entry itself, when
it takes the place of the oldest one, or an entry that stays. -/
def Clashes (links : Links) (entry : Link) : Prop :=
  ∃ dropped, links.Drops entry dropped ∧
    (dropped.remoteId = entry.remoteId ∧ dropped.ircMsgid ≠ entry.ircMsgid ∨
      dropped.remoteId ≠ entry.remoteId ∧
        ∃ other, links.byRemote dropped.remoteId = some other ∧
          other.ircMsgid ≠ dropped.ircMsgid)

theorem lastWithRemote_concat (remoteId : Str) (entries : List Link) (entry : Link) :
    lastWithRemote remoteId (entries ++ [entry]) =
      if remoteId = entry.remoteId then some entry else lastWithRemote remoteId entries := by
  rw [lastWithRemote, List.filter_append]
  by_cases same : remoteId = entry.remoteId
  · rw [if_pos same, List.filter_cons_of_pos (by simpa using same.symm), List.filter_nil,
      List.getLast?_concat]
  · rw [if_neg same, List.filter_cons_of_neg (by simpa using Ne.symm same), List.filter_nil,
      List.append_nil]
    rfl

section Index

variable {links next : Links} {held : List (Fifo.Held Str Link)} {now : Nat} {entry : Link}
  {entries : List Link}

theorem Mirrors.remembers (mirrors : links.Mirrors held) (positive : 0 < links.capacity)
    (sound : Fifo.Sound links.capacity now held) (entry : Link) :
    links.Remembers entry (links.remember entry) := by
  rcases mirrors.remember_cases positive sound entry with
    ⟨old, found, is⟩ | ⟨missing, room, is⟩ |
      ⟨oldest, younger, link, missing, rfl, full, found, differs, is⟩
  · refine .replaced found (fun key => ?_) fun remoteId => ?_
    · rw [is, byIrc_enter, byIrc_drop]
      split <;> rfl
    · rw [is, remoteIndex_enter, remoteIndex_drop found]
  · exact .added missing (mirrors.size ▸ room) (fun key => is ▸ byIrc_enter links entry key)
      fun remoteId => is ▸ remoteIndex_enter links entry remoteId
  · have named := mirrors.named _ _ found
    have entered : (links.enter entry).byIrc oldest.key = some link := by
      rw [byIrc_enter, if_neg differs, found]
    refine .evicted missing (mirrors.size.trans full)
      (mirrors.order.trans (congrArg (· :: younger.map Fifo.Held.key) named.symm))
      (named ▸ found) (fun key => ?_) fun remoteId => ?_
    · rw [is, named, ← byIrc_enter]
      exact byIrc_drop _ _ _
    · rw [is, ← remoteIndex_enter]
      exact remoteIndex_drop entered remoteId

/-- `ByRemote` finds what the index leads to. -/
theorem byRemote_eq_some_iff
    (named : ∀ key link, links.byIrc key = some link → link.ircMsgid = key)
    {remoteId : Str} {link : Link} :
    links.byRemote remoteId = some link ↔
      links.remoteIndex.lookup remoteId = some link.ircMsgid ∧
        links.byIrc link.ircMsgid = some link := by
  rw [byRemote, Option.bind_eq_some_iff]
  constructor
  · rintro ⟨key, isKey, found⟩
    have same := named key link found
    exact ⟨same ▸ isKey, same ▸ found⟩
  · exact fun ⟨isKey, found⟩ => ⟨_, isKey, found⟩

theorem Indexed.remember (indexed : Indexed entries links)
    (remembers : links.Remembers entry next) : Indexed (entries ++ [entry]) next := by
  intro remoteId key isKey
  rw [lastWithRemote_concat]
  cases remembers with
  | @replaced old found byIrc remote =>
      rw [remote] at isKey
      by_cases same : remoteId = entry.remoteId
      · rw [if_pos same] at isKey ⊢
        cases isKey
        exact ⟨entry, (byIrc _).trans (if_pos rfl), same.symm, rfl⟩
      · rw [if_neg same] at isKey ⊢
        by_cases dropped : remoteId = old.remoteId
        · rw [if_pos dropped] at isKey
          exact nomatch isKey
        · rw [if_neg dropped] at isKey
          obtain ⟨link, isLink, carries, last⟩ := indexed remoteId key isKey
          have stays : key ≠ entry.ircMsgid := by
            rintro rfl
            rw [found] at isLink
            cases isLink
            exact dropped carries.symm
          exact ⟨link, (byIrc key).trans ((if_neg stays).trans isLink), carries, last⟩
  | added new _ byIrc remote =>
      rw [remote] at isKey
      by_cases same : remoteId = entry.remoteId
      · rw [if_pos same] at isKey ⊢
        cases isKey
        exact ⟨entry, (byIrc _).trans (if_pos rfl), same.symm, rfl⟩
      · rw [if_neg same] at isKey ⊢
        obtain ⟨link, isLink, carries, last⟩ := indexed remoteId key isKey
        have stays : key ≠ entry.ircMsgid := by
          rintro rfl
          exact nomatch new.symm.trans isLink
        exact ⟨link, (byIrc key).trans ((if_neg stays).trans isLink), carries, last⟩
  | @evicted oldest _ new _ _ found byIrc remote =>
      rw [remote] at isKey
      by_cases dropped : remoteId = oldest.remoteId
      · rw [if_pos dropped] at isKey
        exact nomatch isKey
      · rw [if_neg dropped] at isKey
        by_cases same : remoteId = entry.remoteId
        · rw [if_pos same] at isKey ⊢
          cases isKey
          have stays : entry.ircMsgid ≠ oldest.ircMsgid := fun is =>
            nomatch new.symm.trans ((congrArg links.byIrc is).trans found)
          exact ⟨entry, (byIrc _).trans ((if_neg stays).trans (if_pos rfl)), same.symm, rfl⟩
        · rw [if_neg same] at isKey ⊢
          obtain ⟨link, isLink, carries, last⟩ := indexed remoteId key isKey
          have young : key ≠ entry.ircMsgid := by
            rintro rfl
            exact nomatch new.symm.trans isLink
          have stays : key ≠ oldest.ircMsgid := by
            rintro rfl
            rw [found] at isLink
            cases isLink
            exact dropped carries.symm
          exact ⟨link, (byIrc key).trans ((if_neg stays).trans ((if_neg young).trans isLink)),
            carries, last⟩

theorem Drops.eq_replaced {dropped old : Link} (drops : links.Drops entry dropped)
    (found : links.byIrc entry.ircMsgid = some old) : dropped = old := by
  cases drops with
  | replaced isDropped => exact Option.some.inj (isDropped.symm.trans found)
  | evicted new => exact nomatch new.symm.trans found

theorem Drops.eq_evicted {dropped oldest : Link} {younger : List Str}
    (drops : links.Drops entry dropped) (new : links.byIrc entry.ircMsgid = none)
    (first : links.order = oldest.ircMsgid :: younger)
    (found : links.byIrc oldest.ircMsgid = some oldest) : dropped = oldest := by
  cases drops with
  | replaced isDropped => exact nomatch new.symm.trans isDropped
  | evicted _ _ isFirst isDropped =>
      have same := (List.cons.inj (isFirst.symm.trans first)).1
      rw [same, found] at isDropped
      exact (Option.some.inj isDropped).symm

theorem not_drops_of_room {dropped : Link} (new : links.byIrc entry.ircMsgid = none)
    (room : links.size < links.capacity) : ¬ links.Drops entry dropped := by
  rintro (isDropped | ⟨_, full, _, _⟩)
  · exact nomatch new.symm.trans isDropped
  · exact absurd full (Nat.ne_of_lt room)

section Remembers

variable (named : ∀ key link, links.byIrc key = some link → link.ircMsgid = key)
  (remembers : links.Remembers entry next)

include remembers in
theorem Remembers.byIrc_entry : next.byIrc entry.ircMsgid = some entry := by
  cases remembers with
  | replaced _ byIrc => exact (byIrc _).trans (if_pos rfl)
  | added _ _ byIrc => exact (byIrc _).trans (if_pos rfl)
  | @evicted oldest _ new _ _ found byIrc =>
      have stays : entry.ircMsgid ≠ oldest.ircMsgid := fun is =>
        nomatch new.symm.trans ((congrArg links.byIrc is).trans found)
      exact (byIrc _).trans ((if_neg stays).trans (if_pos rfl))

include named remembers in
/-- The other entries stay, unless they are dropped. -/
theorem Remembers.byIrc_eq_some_iff {key : Str} (differs : key ≠ entry.ircMsgid) {link : Link} :
    next.byIrc key = some link ↔
      links.byIrc key = some link ∧
        ∀ dropped, links.Drops entry dropped → dropped.ircMsgid ≠ key := by
  cases remembers with
  | replaced found byIrc =>
      rw [byIrc, if_neg differs]
      refine ⟨fun isLink => ⟨isLink, fun dropped drops is => ?_⟩, And.left⟩
      exact differs (is.symm.trans (named _ _ ((drops.eq_replaced found) ▸ found)))
  | added new room byIrc =>
      rw [byIrc, if_neg differs]
      exact ⟨fun isLink => ⟨isLink, fun _ drops => absurd drops (not_drops_of_room new room)⟩,
        And.left⟩
  | @evicted oldest _ new full first found byIrc =>
      rw [byIrc, if_neg differs]
      constructor
      · intro isLink
        split at isLink
        · exact nomatch isLink
        · rename_i stays
          refine ⟨isLink, fun dropped drops is => stays ?_⟩
          rw [← is, drops.eq_evicted new first found]
      · rintro ⟨isLink, kept⟩
        rwa [if_neg fun is => kept oldest (.evicted new full first found) is.symm]

include named remembers in
/-- The remote id of a dropped entry leads nowhere, unless it is entered after that. -/
theorem Remembers.remoteIndex_dropped {dropped : Link} (drops : links.Drops entry dropped)
    (gone : dropped.remoteId = entry.remoteId → dropped.ircMsgid ≠ entry.ircMsgid) :
    next.remoteIndex.lookup dropped.remoteId = none := by
  cases remembers with
  | replaced found _ remote =>
      cases drops.eq_replaced found
      have differs : dropped.remoteId ≠ entry.remoteId := fun same => gone same (named _ _ found)
      rw [remote, if_neg differs, if_pos rfl]
  | added new room => exact absurd drops (not_drops_of_room new room)
  | evicted new _ first found _ remote =>
      rw [remote, drops.eq_evicted new first found, if_pos rfl]

include remembers in
/-- The other remote ids lead to the new entry or where they did. -/
theorem Remembers.remoteIndex_kept {remoteId : Str}
    (kept : ∀ dropped, links.Drops entry dropped → dropped.remoteId = remoteId →
      remoteId = entry.remoteId ∧ dropped.ircMsgid = entry.ircMsgid) :
    next.remoteIndex.lookup remoteId =
      if remoteId = entry.remoteId then some entry.ircMsgid
      else links.remoteIndex.lookup remoteId := by
  cases remembers with
  | @replaced old found _ remote =>
      rw [remote]
      split
      · rfl
      · rename_i differs
        rw [if_neg fun is => differs (kept old (.replaced found) is.symm).1]
  | added _ _ _ remote => exact remote remoteId
  | @evicted oldest _ new full first found _ remote =>
      have stays : remoteId ≠ oldest.remoteId := by
        intro is
        have same := (kept oldest (.evicted new full first found) is.symm).2
        exact nomatch new.symm.trans ((congrArg links.byIrc same).symm.trans found)
      rw [remote, if_neg stays]

end Remembers

/-- The indexes stay complete exactly when nothing that is dropped clashes. -/
theorem Complete.remember_iff (complete : Complete entries links)
    (indexed : Indexed entries links)
    (named : ∀ key link, links.byIrc key = some link → link.ircMsgid = key)
    (namedNext : ∀ key link, next.byIrc key = some link → link.ircMsgid = key)
    (remembers : links.Remembers entry next) :
    Complete (entries ++ [entry]) next ↔ ¬ links.Clashes entry := by
  constructor
  · rintro completeNext ⟨dropped, drops, ⟨same, differs⟩ | ⟨apart, other, isOther, differs⟩⟩
    · have last : lastWithRemote entry.remoteId (entries ++ [entry]) = some entry := by
        rw [lastWithRemote_concat, if_pos rfl]
      have found := completeNext entry remembers.byIrc_entry last
      have gone := remembers.remoteIndex_dropped named drops fun _ => differs
      rw [byRemote_eq_some_iff namedNext, ← same, gone] at found
      exact nomatch found.1
    · obtain ⟨leads, isHeld⟩ := (byRemote_eq_some_iff named).mp isOther
      obtain ⟨link, isLink, carries, last⟩ := indexed _ _ leads
      cases isLink.symm.trans isHeld
      have alone : ∀ another, links.Drops entry another → another.ircMsgid ≠ other.ircMsgid := by
        intro another isAnother
        cases drops with
        | replaced found => exact (isAnother.eq_replaced found) ▸ differs.symm
        | evicted new _ first found => exact (isAnother.eq_evicted new first found) ▸ differs.symm
      have old : other.ircMsgid ≠ entry.ircMsgid := by
        cases drops with
        | replaced found => exact named _ _ found ▸ differs
        | evicted new =>
            exact fun is => nomatch new.symm.trans ((congrArg links.byIrc is).symm.trans isHeld)
      have stays := (remembers.byIrc_eq_some_iff named old).mpr ⟨isHeld, alone⟩
      have stillLast : lastWithRemote other.remoteId (entries ++ [entry]) = some other := by
        rw [lastWithRemote_concat, carries, if_neg apart, last]
      have found := completeNext other stays stillLast
      have gone := remembers.remoteIndex_dropped named drops fun same => absurd same apart
      rw [byRemote_eq_some_iff namedNext, carries, gone] at found
      exact nomatch found.1
  · intro peaceful link isLink last
    rw [lastWithRemote_concat] at last
    refine (byRemote_eq_some_iff namedNext).mpr ⟨?_, isLink⟩
    by_cases same : link.remoteId = entry.remoteId
    · rw [if_pos same] at last
      cases last
      refine (remembers.remoteIndex_kept fun dropped drops isDropped => ⟨rfl, ?_⟩).trans (if_pos rfl)
      by_contra differs
      exact peaceful ⟨dropped, drops, .inl ⟨isDropped, differs⟩⟩
    · rw [if_neg same] at last
      have old : link.ircMsgid ≠ entry.ircMsgid := by
        intro is
        rw [is, remembers.byIrc_entry] at isLink
        cases isLink
        exact same rfl
      obtain ⟨isHeld, alone⟩ := (remembers.byIrc_eq_some_iff named old).mp isLink
      have found := complete link isHeld last
      rw [remembers.remoteIndex_kept, if_neg same]
      · exact ((byRemote_eq_some_iff named).mp found).1
      · intro dropped drops isDropped
        refine absurd ⟨dropped, drops, .inr ⟨isDropped ▸ same, link, ?_, ?_⟩⟩ peaceful
        · exact isDropped ▸ found
        · exact (alone dropped drops).symm

end Index

/-! ## Runs -/

theorem positive_new (cap : Nat) : 0 < (new cap).capacity :=
  History.positive_new cap

theorem run_concat (links : Links) (entries : List Link) (entry : Link) :
    links.run (entries ++ [entry]) = (links.run entries).remember entry :=
  List.foldl_concat ..

theorem capacity_run (links : Links) (entries : List Link) :
    (links.run entries).capacity = links.capacity := by
  induction entries using List.reverseRecOn with
  | nil => rfl
  | append_singleton entries entry ih => rw [run_concat, capacity_remember, ih]

/-- Entries do to new links what they do to the empty map. -/
theorem mirrors_run (cap : Nat) (entries : List Link) :
    ((new cap).run entries).Mirrors (Fifo.run (new cap).capacity (entries.map asCall)) := by
  induction entries using List.reverseRecOn with
  | nil => exact ⟨rfl, fun _ => rfl, .nil, fun _ _ is => nomatch is⟩
  | append_singleton entries entry ih =>
      have sound := Fifo.sound_run (positive_new cap) (entries.map asCall)
      have capacity := capacity_run (new cap) entries
      rw [← capacity] at sound ih
      have kept := ih.remember (capacity ▸ positive_new cap) sound entry
      rwa [run_concat, List.map_append, List.map_singleton, Fifo.run_concat, ← capacity]

theorem remembers_run (cap : Nat) (entries : List Link) (entry : Link) :
    ((new cap).run entries).Remembers entry ((new cap).run (entries ++ [entry])) := by
  have capacity := capacity_run (new cap) entries
  have sound := Fifo.sound_run (positive_new cap) (entries.map asCall)
  have mirrors := mirrors_run cap entries
  rw [← capacity] at sound mirrors
  rw [run_concat]
  exact mirrors.remembers (capacity ▸ positive_new cap) sound entry

theorem indexed_run (cap : Nat) (entries : List Link) : Indexed entries ((new cap).run entries) := by
  induction entries using List.reverseRecOn with
  | nil => exact fun _ _ is => nomatch is
  | append_singleton entries entry ih => exact ih.remember (remembers_run cap entries entry)

/-- Links hold the youngest ids, as many as there is room for, each with what was last
remembered for it; the queue has each of them once; what the remote index leads to carries the
remote id; and an entry goes only as the oldest one of links that are full. -/
theorem holds_youngest (cap : Nat) (entries : List Link) :
    (∀ key, ((new cap).run entries).byIrc key =
        Fifo.find key (Fifo.run (new cap).capacity (entries.map asCall))) ∧
      (∀ held ∈ Fifo.run (new cap).capacity (entries.map asCall),
        Fifo.Stands (new cap).capacity (entries.map asCall) held) ∧
      ((new cap).run entries).size ≤ (new cap).capacity ∧
      ((new cap).run entries).order.Nodup ∧
      (∀ key, key ∈ ((new cap).run entries).order ↔
        (((new cap).run entries).byIrc key).isSome = true) ∧
      (∀ remoteId link, ((new cap).run entries).byRemote remoteId = some link →
        link.remoteId = remoteId) ∧
      ∀ entry key link, ((new cap).run entries).byIrc key = some link →
        ((new cap).run (entries ++ [entry])).byIrc key = none →
          ((new cap).run entries).size = (new cap).capacity ∧
            ((new cap).run entries).order.head? = some key ∧
              ((new cap).run entries).byIrc entry.ircMsgid = none := by
  have mirrors := mirrors_run cap entries
  have sound := Fifo.sound_run (positive_new cap) (entries.map asCall)
  refine ⟨mirrors.byIrc, Fifo.stands_of_mem_run (positive_new cap) _,
    mirrors.size ▸ sound.bounded, mirrors.order ▸ sound.distinct, fun key => ?_,
    fun remoteId link found => ?_, fun entry key link found gone => ?_⟩
  · rw [byIrc, AList.lookup_isSome, AList.mem_keys]
    exact mirrors.keys.mem_iff.symm
  · obtain ⟨leads, isHeld⟩ := (byRemote_eq_some_iff mirrors.named).mp found
    obtain ⟨other, isOther, carries, _⟩ := indexed_run cap entries _ _ leads
    cases isOther.symm.trans isHeld
    exact carries
  · have remembers := remembers_run cap entries entry
    have differs : key ≠ entry.ircMsgid := by
      rintro rfl
      exact nomatch gone.symm.trans remembers.byIrc_entry
    have dropped : ¬ ∀ dropped, ((new cap).run entries).Drops entry dropped →
        dropped.ircMsgid ≠ key := by
      intro alone
      have stays := (remembers.byIrc_eq_some_iff mirrors.named differs).mpr ⟨found, alone⟩
      exact nomatch gone.symm.trans stays
    push Not at dropped
    obtain ⟨old, drops, rfl⟩ := dropped
    cases drops with
    | replaced isOld => exact absurd (mirrors.named _ _ isOld) differs
    | evicted isNew full first _ =>
        exact ⟨full.trans (capacity_run _ _), by rw [first, List.head?_cons], isNew⟩

/-- In every state of a run the remote ids lead to the entries that were remembered last with
them exactly when no entry is dropped whose remote id leads to another one. -/
theorem always_complete_iff (cap : Nat) (entries : List Link) :
    (∀ before after, entries = before ++ after → Complete before ((new cap).run before)) ↔
      ∀ before entry after, entries = before ++ entry :: after →
        ¬ ((new cap).run before).Clashes entry := by
  have step : ∀ before entry, Complete before ((new cap).run before) →
      (Complete (before ++ [entry]) ((new cap).run (before ++ [entry])) ↔
        ¬ ((new cap).run before).Clashes entry) := fun before entry complete =>
    complete.remember_iff (indexed_run cap before) (mirrors_run cap before).named
      (mirrors_run cap (before ++ [entry])).named (remembers_run cap before entry)
  constructor
  · rintro always before entry after rfl
    refine (step before entry (always before (entry :: after) rfl)).mp ?_
    exact always (before ++ [entry]) after (by rw [List.append_assoc, List.singleton_append])
  · intro peaceful before
    induction before using List.reverseRecOn with
    | nil => exact fun _ _ _ is => nomatch is
    | append_singleton before entry ih =>
        rintro after rfl
        rw [List.append_assoc, List.singleton_append] at peaceful ih
        exact (step before entry (ih (entry :: after) rfl)).mpr (peaceful before entry after rfl)

/-- An entry with two ids. -/
def linkOf (ircMsgid remoteId : Str) : Link where
  ircMsgid := ircMsgid
  remoteId := remoteId
  remoteChannel := ascii "chan"
  remoteThread := []
  author := ascii "alice"
  excerpt := []

/-- Two messages with one remote id, of which the older one is evicted. -/
theorem not_always_complete_evicted :
    ¬ ∀ before after, [linkOf (ascii "i1") (ascii "r"), linkOf (ascii "i2") (ascii "r"),
        linkOf (ascii "i3") (ascii "r3")] = before ++ after →
      Complete before ((new 2).run before) := by
  intro always
  have complete := always _ [] (List.append_nil _).symm
  exact nomatch complete (linkOf (ascii "i2") (ascii "r")) (by decide +kernel) (by decide +kernel)

end Links

end Anope.Bridge
