import Anope.Servers.Removal

/-!
# Deleting a server

`Server::Delete` takes the tree below a server, and nothing else.
-/

namespace Anope.Servers

open Library Library.Table Anope.Text

variable {α υ : Type} [DecidableEq α] [DecidableEq υ]

/-- The uplink and the links of a server. -/
def State.info (state : State α υ) (a : α) : Option (Option α × List α) :=
  (state.servers.lookup a).map fun server => (server.uplink, server.links)

/-- The tables have each server under its name, and under its id if it has one, and nothing
else. -/
structure Registered (casemap : Casemap) (state : State α υ) : Prop where
  byName : ∀ key a, state.byName.lookup key = some a ↔
    ∃ server, state.servers.lookup a = some server ∧ casemap.ciStr server.name = key
  byID : ∀ key a, state.byID.lookup key = some a ↔
    ∃ server, state.servers.lookup a = some server ∧ server.sid ≠ [] ∧
      casemap.ciStr server.sid = key

omit [DecidableEq υ] in
/-- Of a server the tables know its name and its id. -/
theorem exists_iff_of_names {before after : State α υ} {a : α}
    (same : (after.servers.lookup a).map (fun server => (server.name, server.sid)) =
      (before.servers.lookup a).map fun server => (server.name, server.sid))
    (test : Str → Str → Prop) :
    (∃ server, after.servers.lookup a = some server ∧ test server.name server.sid) ↔
      ∃ server, before.servers.lookup a = some server ∧ test server.name server.sid := by
  cases isBefore : before.servers.lookup a with
  | none =>
      rw [isBefore] at same
      rw [Option.map_eq_none_iff.mp same]
  | some server =>
      rw [isBefore] at same
      obtain ⟨server', isAfter, names⟩ := Option.map_eq_some_iff.mp same
      rw [isAfter]
      simp only [Prod.mk.injEq] at names
      simp [names.1, names.2]

omit [DecidableEq υ] in
theorem Registered.of_names {casemap : Casemap} {before after : State α υ}
    (registered : Registered casemap before) (byName : after.byName = before.byName)
    (byID : after.byID = before.byID)
    (same : ∀ a, (after.servers.lookup a).map (fun server => (server.name, server.sid)) =
      (before.servers.lookup a).map fun server => (server.name, server.sid)) :
    Registered casemap after where
  byName key a := by
    rw [byName, registered.byName,
      exists_iff_of_names (same a) fun name _ => casemap.ciStr name = key]
  byID key a := by
    rw [byID, registered.byID,
      exists_iff_of_names (same a) fun _ sid => sid ≠ [] ∧ casemap.ciStr sid = key]

/-- Servers are gone from the heap and from the tables, and their users have quit; of the other
servers only one may have other links. -/
structure Removes (gone : List α) (via : Option α) (before after : State α υ) : Prop
    extends Drops gone before after where
  destroyed : ∀ a ∈ gone, after.servers.lookup a = none
  kept : ∀ a ∉ gone, some a ≠ via → after.servers.lookup a = before.servers.lookup a
  through : ∀ a ∉ gone, ∃ links : List α → List α, after.servers.lookup a =
    (before.servers.lookup a).map fun server => { server with links := links server.links }
  byName : ∀ key, after.byName.lookup key =
    (before.byName.lookup key).filter fun a => decide (a ∉ gone)
  byID : ∀ key, after.byID.lookup key =
    (before.byID.lookup key).filter fun a => decide (a ∉ gone)

section Removes

variable {casemap : Casemap} {gone more : List α} {via : Option α}
  {before middle after : State α υ}

theorem Removes.congr (removes : Removes gone via before after)
    (same : ∀ a, a ∈ gone ↔ a ∈ more) : Removes more via before after where
  toDrops := removes.toDrops.congr same
  destroyed a mem := removes.destroyed a ((same a).mpr mem)
  kept a notMem := removes.kept a (mt (same a).mp notMem)
  through a notMem := removes.through a (mt (same a).mp notMem)
  byName key := by
    rw [removes.byName]
    simp only [same]
  byID key := by
    rw [removes.byID]
    simp only [same]

theorem Removes.trans (first : Removes gone via before middle)
    (second : Removes more via middle after) : Removes (gone ++ more) via before after where
  toDrops := first.toDrops.trans second.toDrops
  destroyed a mem := by
    by_cases inMore : a ∈ more
    · exact second.destroyed a inMore
    · obtain ⟨links, is⟩ := second.through a inMore
      rw [is, first.destroyed a ((List.mem_append.mp mem).resolve_right inMore)]
      rfl
  kept a notMem elsewhere := by
    rw [List.mem_append, not_or] at notMem
    rw [second.kept a notMem.2 elsewhere, first.kept a notMem.1 elsewhere]
  through a notMem := by
    rw [List.mem_append, not_or] at notMem
    obtain ⟨links, is⟩ := first.through a notMem.1
    obtain ⟨links', is'⟩ := second.through a notMem.2
    refine ⟨links' ∘ links, ?_⟩
    rw [is', is, Option.map_map]
    rfl
  byName key := by
    rw [second.byName, first.byName, Option.filter_filter]
    simp only [List.mem_append, not_or, Bool.decide_and]
  byID key := by
    rw [second.byID, first.byID, Option.filter_filter]
    simp only [List.mem_append, not_or, Bool.decide_and]

/-- The tables stay right. -/
theorem Removes.registered (removes : Removes gone via before after)
    (registered : Registered casemap before) : Registered casemap after := by
  have left : ∀ a, a ∉ gone →
      (after.servers.lookup a).map (fun server => (server.name, server.sid)) =
        (before.servers.lookup a).map fun server => (server.name, server.sid) := by
    intro a notMem
    obtain ⟨links, is⟩ := removes.through a notMem
    rw [is, Option.map_map]
    rfl
  have lost : ∀ a ∈ gone, ∀ test : Server α → Prop,
      ¬ ∃ server, after.servers.lookup a = some server ∧ test server := by
    rintro a mem test ⟨server, is, _⟩
    rw [removes.destroyed a mem] at is
    cases is
  constructor
  · intro key a
    rw [removes.byName, Option.filter_eq_some_iff, registered.byName, decide_eq_true_iff]
    by_cases mem : a ∈ gone
    · exact iff_of_false (fun both => both.2 mem) (lost a mem _)
    · rw [exists_iff_of_names (left a mem) fun name _ => casemap.ciStr name = key]
      exact and_iff_left mem
  · intro key a
    rw [removes.byID, Option.filter_eq_some_iff, registered.byID, decide_eq_true_iff]
    by_cases mem : a ∈ gone
    · exact iff_of_false (fun both => both.2 mem) (lost a mem _)
    · rw [exists_iff_of_names (left a mem) fun _ sid => sid ≠ [] ∧ casemap.ciStr sid = key]
      exact and_iff_left mem

end Removes

/-! ## One server -/

/-- A server that can be deleted: what is below it, and an uplink that knows it. -/
structure Deletable (casemap : Casemap) (this : α) (up : Option α) (below : Forest α)
    (state : State α υ) : Prop where
  isServer : state.info this = some (up, below.roots)
  described : below.Describes state.info (some this)
  distinct : (this :: below.nodes).Nodup
  place : ∀ p, up = some p → p ∉ this :: below.nodes ∧
    ∃ server, state.servers.lookup p = some server ∧ this ∈ server.links
  registered : Registered casemap state

/-- What the deletion leaves. -/
structure Deleted (this : α) (up : Option α) (below : Forest α) (before after : State α υ) :
    Prop where
  removes : Removes (this :: below.nodes) up before after
  place : ∀ p server, up = some p → before.servers.lookup p = some server →
    after.servers.lookup p = some { server with links := server.links.erase this }

/-- The loop over links takes the last ones with what is below them, and leaves the first. -/
def LoopTakes (casemap : Casemap) (υ : Type) [DecidableEq υ] (forest : Forest α) : Prop :=
  ∀ (bound : Nat) (this : α) (first : List α) (state : State α υ) (server : Server α),
    state.servers.lookup this = some server → server.links = first ++ forest.roots →
    (this :: (first ++ forest.nodes)).Nodup → forest.Describes state.info (some this) →
    Registered casemap state → forest.nodes.length ≤ bound →
    ∃ after, state.deleteLinks (State.delete casemap bound) this
          (first.length + forest.roots.length) =
        after.deleteLinks (State.delete casemap bound) this first.length ∧
      Removes forest.nodes (some this) state after ∧
      after.servers.lookup this = some { server with links := first }

omit [DecidableEq υ] in
theorem info_eq_some {state : State α υ} {a : α} {up : Option α} {links : List α} :
    state.info a = some (up, links) ↔ ∃ server, state.servers.lookup a = some server ∧
      server.uplink = up ∧ server.links = links := by
  rw [State.info, Option.map_eq_some_iff]
  simp only [Prod.mk.injEq]

/-- A server once `Delete` has marked it. -/
def Server.marked (reason : Str) (server : Server α) : Server α :=
  { server with quitReason := reason, quitting := true }

theorem lookup_mark (this : α) (reason : Str) (state : State α υ) (a : α) :
    ((state.mark this reason).dropUsers this).servers.lookup a =
      if a = this then (state.servers.lookup a).map (Server.marked reason)
      else state.servers.lookup a := by
  rw [State.dropUsers, (State.foldl_dropUser_servers this _ _).1, State.mark, State.update]
  by_cases same : a = this
  · rw [if_pos same, same, lookup_modify_self]
    rfl
  · rw [if_neg same, lookup_modify_ne same]

theorem tables_mark (this : α) (reason : Str) (state : State α υ) :
    ((state.mark this reason).dropUsers this).byName = state.byName ∧
      ((state.mark this reason).dropUsers this).byID = state.byID :=
  (State.foldl_dropUser_servers this _ _).2

theorem drops_mark (this : α) (reason : Str) (state : State α υ) :
    Drops [this] state ((state.mark this reason).dropUsers this) :=
  (State.drops_dropUsers this (state.mark this reason)).from_same rfl rfl

omit [DecidableEq υ] in
/-- A server that its uplink has leaves it. -/
theorem leave_of_place {state : State α υ} {this p : α} {server place : Server α}
    (isServer : state.servers.lookup this = some server) (isUp : server.uplink = some p)
    (isPlace : state.servers.lookup p = some place) (isLink : this ∈ place.links) :
    state.leave this =
      some (state.update p fun server => { server with links := server.links.erase this }) := by
  rw [State.leave, isServer]
  simp only [isUp]
  rw [State.delLink, isPlace]
  exact if_neg (by simpa using List.ne_nil_of_mem isLink)

omit [DecidableEq υ] in
theorem leave_of_none {state : State α υ} {this : α} {server : Server α}
    (isServer : state.servers.lookup this = some server) (noUp : server.uplink = none) :
    state.leave this = some state := by
  rw [State.leave, isServer]
  simp only [noUp]

/-- What a deletion leaves before the loop over the links. -/
structure Left (this : α) (up : Option α) (reason : Str) (before left : State α υ) : Prop
    extends Drops [this] before left where
  marked : left.servers.lookup this =
    (before.servers.lookup this).map (Server.marked reason)
  others : ∀ a, a ≠ this → some a ≠ up → left.servers.lookup a = before.servers.lookup a
  place : ∀ p server, up = some p → before.servers.lookup p = some server →
    left.servers.lookup p = some { server with links := server.links.erase this }
  byName : left.byName = before.byName
  byID : left.byID = before.byID

/-- A deletion up to the loop over the links. -/
theorem Deletable.leave {casemap : Casemap} {this : α} {up : Option α} {below : Forest α}
    {state : State α υ} (deletable : Deletable casemap this up below state) (reason : Str) :
    ∃ left, ((state.mark this reason).dropUsers this).leave this = some left ∧
      Left this up reason state left := by
  obtain ⟨server, isServer, isUp, _⟩ := info_eq_some.mp deletable.isServer
  obtain ⟨byName, byID⟩ := tables_mark this reason state
  have lookup := lookup_mark this reason state
  have isMarked : ((state.mark this reason).dropUsers this).servers.lookup this =
      some (server.marked reason) := by
    rw [lookup, if_pos rfl, isServer]
    rfl
  cases up with
  | none =>
      refine ⟨_, leave_of_none isMarked isUp, drops_mark this reason state, ?_, ?_, ?_, byName,
        byID⟩
      · rw [lookup, if_pos rfl]
      · intro a other _
        rw [lookup, if_neg other]
      · intro p _ isPlace
        cases isPlace
  | some p =>
      obtain ⟨notBelow, place, isPlace, isLink⟩ := deletable.place p rfl
      have other : p ≠ this := fun same => notBelow (same ▸ List.mem_cons_self)
      have stillPlace : ((state.mark this reason).dropUsers this).servers.lookup p =
          some place := by
        rw [lookup, if_neg other, isPlace]
      refine ⟨_, leave_of_place isMarked isUp stillPlace isLink,
        (drops_mark this reason state).of_same rfl rfl, ?_, ?_, ?_, byName, byID⟩
      · rw [State.update, lookup_modify_ne other.symm, lookup, if_pos rfl]
      · intro a notThis notPlace
        rw [State.update, lookup_modify_ne fun same : a = p => notPlace (congrArg some same),
          lookup, if_neg notThis]
      · intro p' server isP' isServer
        cases isP'
        rw [State.update, lookup_modify_self, stillPlace, Option.map_some]
        cases isPlace.symm.trans isServer
        rfl

omit [DecidableEq υ] in
/-- A server is forgotten once what is below it is gone. -/
theorem forget_of_found {casemap : Casemap} {state : State α υ} {this : α} {server : Server α}
    (found : state.servers.lookup this = some server) :
    state.forget casemap this = some { state with
      servers := state.servers.erase this
      byName := state.byName.erase (casemap.ciStr server.name)
      byID :=
        if server.sid.isEmpty then state.byID
        else state.byID.erase (casemap.ciStr server.sid) } := by
  rw [State.forget, found]

/-- A table without the key of a server, when those below it are out already. -/
theorem lookup_erase_filter {table after : AList fun _ : Str => α} {own key : Str} {this : α}
    {below : List α} (isOwn : ∀ key, table.lookup key = some this ↔ key = own)
    (is : ∀ key, after.lookup key = (table.lookup key).filter fun a => decide (a ∉ below)) :
    (after.erase own).lookup key =
      (table.lookup key).filter fun a => decide (a ∉ this :: below) := by
  by_cases same : key = own
  · rw [same, AList.lookup_erase, (isOwn own).mpr rfl]
    exact (Option.filter_some_neg (by simp)).symm
  · rw [AList.lookup_erase_ne same, is]
    cases found : table.lookup key with
    | none => rfl
    | some a =>
        have other : a ≠ this := fun isThis => same ((isOwn key).mp (found.trans (isThis ▸ rfl)))
        simp [Option.filter, other]

/-- The same for a table that does not have the server. -/
theorem lookup_filter_of_absent {table after : AList fun _ : Str => α} {key : Str} {this : α}
    {below : List α} (absent : ∀ key, table.lookup key ≠ some this)
    (is : ∀ key, after.lookup key = (table.lookup key).filter fun a => decide (a ∉ below)) :
    after.lookup key = (table.lookup key).filter fun a => decide (a ∉ this :: below) := by
  rw [is]
  cases found : table.lookup key with
  | none => rfl
  | some a =>
      have other : a ≠ this := fun isThis => absent key (found.trans (isThis ▸ rfl))
      simp [Option.filter, other]

/-- The last step of a deletion. -/
theorem Deleted.of_forgotten {casemap : Casemap} {this : α} {up : Option α} {below : Forest α}
    {before left alone after : State α υ} {server rest : Server α}
    (deletable : Deletable casemap this up below before)
    (isServer : before.servers.lookup this = some server) (was : Left this up reason before left)
    (removes : Removes below.nodes (some this) left alone)
    (found : alone.servers.lookup this = some rest) (name : rest.name = server.name)
    (sid : rest.sid = server.sid) (forgotten : alone.forget casemap this = some after) :
    Deleted this up below before after := by
  rw [forget_of_found found, name, sid] at forgotten
  cases forgotten
  have notBelow : this ∉ below.nodes := (List.nodup_cons.mp deletable.distinct).1
  have byName : ∀ key, alone.byName.lookup key =
      (before.byName.lookup key).filter fun a => decide (a ∉ below.nodes) := by
    intro key
    rw [removes.byName, was.byName]
  have byID : ∀ key, alone.byID.lookup key =
      (before.byID.lookup key).filter fun a => decide (a ∉ below.nodes) := by
    intro key
    rw [removes.byID, was.byID]
  refine ⟨⟨(was.toDrops.trans removes.toDrops).of_same rfl rfl, ?_, ?_, ?_, ?_, ?_⟩, ?_⟩
  · intro a mem
    by_cases same : a = this
    · subst same
      exact AList.lookup_erase _ _
    · refine (AList.lookup_erase_ne same).trans (removes.destroyed a ?_)
      exact (List.mem_cons.mp mem).resolve_left same
  · intro a notMem elsewhere
    rw [List.mem_cons, not_or] at notMem
    refine (AList.lookup_erase_ne notMem.1).trans ?_
    rw [removes.kept a notMem.2 fun is => notMem.1 (Option.some.inj is),
      was.others a notMem.1 elsewhere]
  · intro a notMem
    rw [List.mem_cons, not_or] at notMem
    have kept := removes.kept a notMem.2 fun is => notMem.1 (Option.some.inj is)
    by_cases isUp : some a = up
    · obtain ⟨_, place, isPlace, _⟩ := deletable.place a isUp.symm
      refine ⟨fun links => links.erase this, (AList.lookup_erase_ne notMem.1).trans ?_⟩
      rw [kept, was.place a place isUp.symm isPlace, isPlace]
      rfl
    · refine ⟨id, (AList.lookup_erase_ne notMem.1).trans ?_⟩
      rw [kept, was.others a notMem.1 isUp]
      exact Option.map_id'.symm
  · intro key
    refine lookup_erase_filter (fun key => ?_) byName
    rw [deletable.registered.byName, isServer]
    simp [eq_comm]
  · intro key
    cases isEmpty : server.sid.isEmpty with
    | true =>
        simp only [if_true]
        refine lookup_filter_of_absent (fun key is => ?_) byID
        obtain ⟨other, isOther, nonempty, _⟩ := (deletable.registered.byID key this).mp is
        cases isServer.symm.trans isOther
        exact nonempty (List.isEmpty_iff.mp isEmpty)
    | false =>
        simp only [if_neg Bool.false_ne_true]
        refine lookup_erase_filter (fun key => ?_) byID
        rw [deletable.registered.byID, isServer]
        have nonempty : server.sid ≠ [] := fun is => by simp [is] at isEmpty
        simp [eq_comm, nonempty]
  · intro p place isUp isPlace
    obtain ⟨notUnder, _⟩ := deletable.place p isUp
    rw [List.mem_cons, not_or] at notUnder
    refine (AList.lookup_erase_ne notUnder.1).trans ?_
    rw [removes.kept p notUnder.2 fun is => notUnder.1 (Option.some.inj is)]
    exact was.place p place isUp isPlace

/-- A deletion, when the loop over the links takes what is below. -/
theorem Deletable.delete {casemap : Casemap} {this : α} {up : Option α} {below : Forest α}
    {state : State α υ} (deletable : Deletable casemap this up below state)
    (loop : LoopTakes casemap υ below) (reason : Str) {bound : Nat}
    (enough : below.nodes.length ≤ bound) :
    ∃ after, state.delete casemap (bound + 1) this reason = some after ∧
      Deleted this up below state after := by
  obtain ⟨left, isLeft, was⟩ := deletable.leave reason
  obtain ⟨server, isServer, isUp, isLinks⟩ := info_eq_some.mp deletable.isServer
  have isMarked : left.servers.lookup this = some (server.marked reason) := by
    rw [was.marked, isServer]
    rfl
  have kept : ∀ a ∈ below.nodes, left.info a = state.info a := by
    intro a mem
    rw [State.info, State.info, was.others a]
    · exact fun same => (List.nodup_cons.mp deletable.distinct).1 (same ▸ mem)
    · exact fun isUp => (deletable.place a isUp.symm).1 (List.mem_cons_of_mem _ mem)
  have registered : Registered casemap left := by
    refine deletable.registered.of_names was.byName was.byID fun a => ?_
    by_cases same : a = this
    · rw [same, was.marked, Option.map_map]
      rfl
    · by_cases isPlace : some a = up
      · obtain ⟨_, place, found, _⟩ := deletable.place a isPlace.symm
        rw [was.place a place isPlace.symm found, found]
        rfl
      · rw [was.others a same isPlace]
  obtain ⟨alone, loops, removes, isAlone⟩ := loop bound this [] left _ isMarked isLinks
    deletable.distinct (deletable.described.congr kept) registered enough
  have count : left.linkCount this = below.roots.length := by
    rw [State.linkCount, isMarked]
    exact congrArg List.length isLinks
  rw [List.length_nil, Nat.zero_add] at loops
  have forgotten : alone.forget casemap this = _ := forget_of_found isAlone
  refine ⟨_, ?_, Deleted.of_forgotten deletable isServer was removes isAlone rfl rfl forgotten⟩
  rw [State.delete, isLeft, Option.bind_some, count, loops]
  exact forgotten

/-! ## The loop over links -/

omit [DecidableEq υ] in
theorem deleteLinks_succ {delete : α → Str → State α υ → Option (State α υ)} {this link : α}
    {state : State α υ} {server : Server α} {i : Nat}
    (found : state.servers.lookup this = some server) (isLink : server.links[i]? = some link) :
    state.deleteLinks delete this (i + 1) =
      (delete link server.quitReason state).bind (State.deleteLinks delete this i) := by
  rw [State.deleteLinks, found]
  simp only [isLink]

/-- Nothing is removed. -/
theorem Removes.refl (via : Option α) (state : State α υ) : Removes [] via state state := by
  refine ⟨⟨?_, [], (List.append_nil _).symm, List.nodup_nil, ?_⟩, ?_, ?_, ?_, ?_, ?_⟩
  · intro u
    have same : User.leave ([] : List α) = id := by
      funext user
      rw [User.leave, User.isOn]
      cases user.server <;> rfl
    rw [same, Option.map_id]
    rfl
  · intro u
    rw [State.quitsWith]
    refine iff_of_false List.not_mem_nil ?_
    cases state.users.lookup u with
    | none => exact Bool.false_ne_true
    | some user =>
        rw [Option.any_some, User.isOn]
        cases user.server <;> exact Bool.false_ne_true
  · exact fun a mem => absurd mem List.not_mem_nil
  · exact fun _ _ _ => rfl
  · exact fun _ _ => ⟨id, Option.map_id'.symm⟩
  · intro key
    cases state.byName.lookup key <;> rfl
  · intro key
    cases state.byID.lookup key <;> rfl

/-- The loop takes the links one by one: the last trees first, then the one before them. -/
theorem loopTakes (casemap : Casemap) (forest : Forest α) : LoopTakes casemap υ forest := by
  induction forest with
  | nil =>
      intro bound this first state server found links _ _ _ _
      refine ⟨state, rfl, Removes.refl _ _, ?_⟩
      rw [Forest.roots, List.append_nil] at links
      rw [found, ← links]
  | node root below others ihBelow ihOthers =>
      intro bound this first state server found links distinct described registered enough
      obtain ⟨isRoot, isBelow, areOthers⟩ := described
      rw [Forest.nodes, List.length_cons, List.length_append] at enough
      rw [Forest.nodes] at distinct
      obtain ⟨notNodes, distinctNodes⟩ := List.nodup_cons.mp distinct
      obtain ⟨_, distinctTrees, apart⟩ := List.nodup_append.mp distinctNodes
      obtain ⟨notRoot, distinctTrees⟩ := List.nodup_cons.mp distinctTrees
      obtain ⟨distinctBelow, _, apartTrees⟩ := List.nodup_append.mp distinctTrees
      have notFirst : root ∉ first := fun mem => apart root mem root List.mem_cons_self rfl
      have notOthers : root ∉ others.nodes := fun mem => notRoot (List.mem_append_right _ mem)
      have otherNodes : (this :: ((first ++ [root]) ++ others.nodes)).Nodup := by
        refine distinct.sublist (List.Sublist.cons_cons _ ?_)
        rw [List.append_assoc, List.singleton_append]
        exact List.Sublist.append_left
          (List.Sublist.cons_cons _ (List.sublist_append_right _ _)) _
      obtain ⟨middle, loops, removes, stays⟩ := ihOthers bound this (first ++ [root]) state server
        found (links.trans (by rw [Forest.roots, List.append_assoc, List.singleton_append]))
        otherNodes areOthers registered (by omega)
      have notBelow : this ∉ root :: below.nodes := by
        intro mem
        refine notNodes (List.mem_append_right _ ?_)
        rcases List.mem_cons.mp mem with is | mem
        · exact is ▸ List.mem_cons_self
        · exact List.mem_cons_of_mem _ (List.mem_append_left _ mem)
      have kept : ∀ a ∈ root :: below.nodes, middle.info a = state.info a := by
        intro a mem
        rw [State.info, State.info, removes.kept a]
        · rcases List.mem_cons.mp mem with rfl | mem
          · exact notOthers
          · exact fun inOthers => apartTrees a mem a inOthers rfl
        · exact fun is => notBelow (Option.some.inj is ▸ mem)
      have deletable : Deletable casemap root (some this) below middle := by
        refine ⟨(kept root List.mem_cons_self).trans isRoot,
          isBelow.congr fun a mem => kept a (List.mem_cons_of_mem _ mem),
          List.nodup_cons.mpr ⟨fun mem => notRoot (List.mem_append_left _ mem), distinctBelow⟩,
          ?_, removes.registered registered⟩
        intro p is
        cases is
        exact ⟨notBelow, _, stays, List.mem_append_right _ List.mem_cons_self⟩
      obtain ⟨bound, rfl⟩ : ∃ less, bound = less + 1 := ⟨bound - 1, by omega⟩
      obtain ⟨after, deletes, was⟩ :=
        deletable.delete ihBelow server.quitReason (by omega : below.nodes.length ≤ bound)
      refine ⟨after, ?_, (removes.trans was.removes).congr fun a => ?_, ?_⟩
      · have isLink : (first ++ [root])[first.length]? = some root := List.getElem?_concat_length
        rw [Forest.roots, List.length_cons, Nat.add_comm others.roots.length, ← Nat.add_assoc]
        rw [List.length_append, List.length_singleton] at loops
        rw [loops, deleteLinks_succ stays isLink, deletes, Option.bind_some]
      · simp only [Forest.nodes, List.mem_append, List.mem_cons]
        tauto
      · rw [was.place this _ rfl stays]
        refine congrArg some (congrArg (fun links => { server with links := links }) ?_)
        rw [List.erase_append_right _ notFirst, List.erase_cons_head, List.append_nil]

/-! ## Trees of servers -/

/-- The servers of a state are the nodes of a forest, linked as they are there, and the tables
have them. -/
structure Represents (casemap : Casemap) (forest : Forest α) (state : State α υ) : Prop where
  shape : forest.Describes state.info none
  live : ∀ a, a ∈ state.servers ↔ a ∈ forest.nodes
  distinct : forest.nodes.Nodup
  registered : Registered casemap state

section Trees

variable {casemap : Casemap} {forest : Forest α} {state : State α υ} {this : α}

omit [DecidableEq υ] in
theorem Represents.notMem_under (represents : Represents casemap forest state) {a : α}
    (left : a ∈ (forest.prune this).nodes) : a ∉ forest.under this := by
  have distinct := (forest.perm_nodes this).nodup_iff.mp represents.distinct
  exact fun mem => (List.nodup_append.mp distinct).2.2 a left a mem rfl

omit [DecidableEq υ] in
theorem Represents.deletable (represents : Represents casemap forest state)
    (mem : this ∈ forest.nodes) :
    ∃ up below, Deletable casemap this up below state ∧
      forest.under this = this :: below.nodes := by
  obtain ⟨up, below, isServer, described, isUnder, place⟩ :=
    represents.shape.exists_below represents.distinct mem
  have distinct := (forest.perm_nodes this).nodup_iff.mp represents.distinct
  refine ⟨up, below, ⟨isServer, described, ?_, ?_, represents.registered⟩, isUnder⟩
  · rw [← isUnder]
    exact distinct.sublist (List.sublist_append_right _ _)
  · rintro p rfl
    rcases place with ⟨isNone, _⟩ | ⟨place, children, up', isPlace, left, isInfo, isChild, _⟩
    · cases isNone
    · cases isPlace
      obtain ⟨server, found, _, links⟩ := info_eq_some.mp isInfo
      exact ⟨isUnder ▸ represents.notMem_under left, server, found, links ▸ isChild⟩

omit [DecidableEq υ] in
/-- A server has each of its links once. -/
theorem Represents.nodup_links (represents : Represents casemap forest state) {a : α}
    {server : Server α} (found : state.servers.lookup a = some server) : server.links.Nodup := by
  have mem : a ∈ forest.nodes :=
    (represents.live a).mp (AList.lookup_isSome.mp (found ▸ rfl))
  obtain ⟨up, below, isInfo, _, isUnder, _⟩ :=
    represents.shape.exists_below represents.distinct mem
  obtain ⟨other, isOther, _, links⟩ := info_eq_some.mp isInfo
  cases found.symm.trans isOther
  have distinct := (forest.perm_nodes a).nodup_iff.mp represents.distinct
  rw [isUnder] at distinct
  rw [links]
  refine distinct.sublist (List.Sublist.trans ?_ (List.sublist_append_right _ _))
  exact below.roots_sublist.cons a

/-- `Server::Delete` takes a server and all that is below it, and nothing else: from the heap,
the tables and the links of the uplink, with the users quit once.  It returns, and what is left
is the tree without them. -/
theorem delete_takes_subtree {server : Server α} (represents : Represents casemap forest state)
    (found : state.servers.lookup this = some server) (reason : Str) {bound : Nat}
    (enough : forest.nodes.length ≤ bound) :
    ∃ after, state.delete casemap bound this reason = some after ∧
      Removes (forest.under this) server.uplink state after ∧
      (∀ up place, server.uplink = some up → state.servers.lookup up = some place →
        after.servers.lookup up = some { place with links := place.links.erase this }) ∧
      Represents casemap (forest.prune this) after := by
  have mem : this ∈ forest.nodes :=
    (represents.live this).mp (AList.lookup_isSome.mp (found ▸ rfl))
  obtain ⟨up, below, deletable, isUnder⟩ := represents.deletable mem
  obtain ⟨same, isSame, rfl, _⟩ := info_eq_some.mp deletable.isServer
  cases found.symm.trans isSame
  have perm := forest.perm_nodes this
  have length := perm.length_eq
  rw [isUnder, List.length_append, List.length_cons] at length
  obtain ⟨bound, rfl⟩ : ∃ less, bound = less + 1 := ⟨bound - 1, by omega⟩
  obtain ⟨after, deletes, was⟩ :=
    deletable.delete (loopTakes casemap below) reason (by omega : below.nodes.length ≤ bound)
  have removes := was.removes
  rw [← isUnder] at removes
  refine ⟨after, deletes, removes, fun up place isUp isPlace => was.place up place isUp isPlace,
    ?_, ?_, ?_, removes.registered represents.registered⟩
  · refine represents.shape.prune fun a left => ?_
    have notMem := represents.notMem_under left
    by_cases isUp : server.uplink = some a
    · obtain ⟨_, place, isPlace, _⟩ := deletable.place a isUp
      rw [State.info, State.info, was.place a place isUp isPlace, isPlace, Option.map_some,
        Option.map_some, Option.map_some, (represents.nodup_links isPlace).erase_eq_filter]
      refine congrArg some (congrArg (Prod.mk _) (List.filter_congr fun child _ => ?_))
      simp [bne, beq_eq_decide]
    · have stranger : ∀ up children, state.info a = some (up, children) → this ∉ children := by
        intro up children isInfo isChild
        have inNodes : a ∈ forest.nodes := perm.mem_iff.mpr (List.mem_append_left _ left)
        obtain ⟨links, isThis⟩ := represents.shape.parent_of_child inNodes isInfo isChild
        rw [State.info, found, Option.map_some] at isThis
        exact isUp (congrArg Prod.fst (Option.some.inj isThis))
      rw [State.info, removes.kept a notMem fun is => isUp is.symm, ← State.info]
      cases isInfo : state.info a with
      | none => rfl
      | some info =>
          have links : info.2.filter (fun child => child ≠ this) = info.2 := by
            refine List.filter_eq_self.mpr fun child isChild => decide_eq_true ?_
            rintro rfl
            exact stranger info.1 info.2 isInfo isChild
          rw [Option.map_some, Prod.map, links]
          rfl
  · intro a
    rw [← AList.lookup_isSome]
    by_cases inUnder : a ∈ forest.under this
    · rw [removes.destroyed a inUnder]
      exact iff_of_false Bool.false_ne_true fun left => represents.notMem_under left inUnder
    · obtain ⟨links, is⟩ := removes.through a inUnder
      rw [is, Option.isSome_map, AList.lookup_isSome, represents.live, perm.mem_iff,
        List.mem_append, or_iff_left inUnder]
  · exact ((perm.nodup_iff.mp represents.distinct)).sublist (List.sublist_append_left _ _)

/-! ## Growing trees -/

omit [DecidableEq υ] in
/-- A new server has a table entry of its own. -/
theorem Registered.enter (registered : Registered casemap state) (new : this ∉ state.servers)
    (up : Option α) {sname ssid : Str}
    (newName : state.byName.lookup (casemap.ciStr sname) = none)
    (newID : ssid ≠ [] → state.byID.lookup (casemap.ciStr ssid) = none) :
    Registered casemap (state.enter casemap this up sname ssid) := by
  have others : ∀ a, a ≠ this → (state.enter casemap this up sname ssid).servers.lookup a =
      state.servers.lookup a := fun a other => AList.lookup_insert_ne other
  have own : (state.enter casemap this up sname ssid).servers.lookup this =
      some ⟨sname, ssid, up, [], [], false⟩ := AList.lookup_insert _
  have absent : state.servers.lookup this = none := AList.lookup_eq_none.mpr new
  constructor
  · intro key a
    by_cases isThis : a = this
    · subst isThis
      rw [own]
      by_cases same : key = casemap.ciStr sname
      · rw [same, State.enter, AList.lookup_insert]
        simp
      · rw [State.enter, AList.lookup_insert_ne same, registered.byName, absent]
        simp [eq_comm, same]
    · rw [others a isThis, ← registered.byName]
      by_cases same : key = casemap.ciStr sname
      · rw [same, State.enter, AList.lookup_insert, newName]
        exact iff_of_false (fun is => isThis (Option.some.inj is).symm)
          (Option.some_ne_none a).symm
      · rw [State.enter, AList.lookup_insert_ne same]
  · intro key a
    rw [State.enter]
    cases isEmpty : ssid.isEmpty with
    | true =>
        have empty := List.isEmpty_iff.mp isEmpty
        simp only [if_true]
        by_cases isThis : a = this
        · subst isThis
          rw [registered.byID, absent, AList.lookup_insert]
          simp [empty]
        · rw [AList.lookup_insert_ne isThis, registered.byID]
    | false =>
        have nonempty : ssid ≠ [] := fun is => by simp [is] at isEmpty
        simp only [if_neg Bool.false_ne_true]
        by_cases isThis : a = this
        · subst isThis
          rw [AList.lookup_insert]
          by_cases same : key = casemap.ciStr ssid
          · rw [same, AList.lookup_insert]
            simp [nonempty]
          · rw [AList.lookup_insert_ne same, registered.byID, absent]
            simp [nonempty, eq_comm, same]
        · rw [AList.lookup_insert_ne isThis, ← registered.byID]
          by_cases same : key = casemap.ciStr ssid
          · rw [same, AList.lookup_insert, newID nonempty]
            exact iff_of_false (fun is => isThis (Option.some.inj is).symm)
              (Option.some_ne_none a).symm
          · rw [AList.lookup_insert_ne same]

omit [DecidableEq υ] in
theorem info_enter (casemap : Casemap) (this : α) (up : Option α) (sname ssid : Str)
    (state : State α υ) (a : α) :
    (state.enter casemap this up sname ssid).info a =
      if a = this then some (up, []) else state.info a := by
  rw [State.info, State.enter]
  by_cases same : a = this
  · rw [if_pos same, same, AList.lookup_insert]
    rfl
  · rw [if_neg same, AList.lookup_insert_ne same]
    rfl

omit [DecidableEq υ] in
/-- A server without an uplink is a tree of its own. -/
theorem Represents.newServer_none (represents : Represents casemap forest state)
    (new : this ∉ state.servers) {sname ssid : Str}
    (newName : state.byName.lookup (casemap.ciStr sname) = none)
    (newID : ssid ≠ [] → state.byID.lookup (casemap.ciStr ssid) = none) :
    Represents casemap (forest.concat this) (state.newServer casemap this none sname ssid) := by
  have info := info_enter casemap this none sname ssid state
  have absent : this ∉ forest.nodes := mt (represents.live this).mpr new
  refine ⟨Forest.Describes.concat (represents.shape.congr fun a mem => ?_) ?_, fun a => ?_, ?_,
    represents.registered.enter new none newName newID⟩
  · exact (info a).trans (if_neg fun same : a = this => absent (same ▸ mem))
  · exact (info this).trans (if_pos rfl)
  · rw [Forest.nodes_concat, List.mem_append, List.mem_singleton, ← represents.live]
    exact (AList.mem_insert _).trans or_comm
  · rw [Forest.nodes_concat]
    exact List.nodup_append.mpr ⟨represents.distinct, List.nodup_singleton _,
      fun a mem b isThis same => absent (List.mem_singleton.mp isThis ▸ same ▸ mem)⟩

omit [DecidableEq υ] in
/-- A server with an uplink is put behind its other links. -/
theorem Represents.newServer_some (represents : Represents casemap forest state) {up : α}
    (isUp : up ∈ state.servers) (new : this ∉ state.servers) {sname ssid : Str}
    (newName : state.byName.lookup (casemap.ciStr sname) = none)
    (newID : ssid ≠ [] → state.byID.lookup (casemap.ciStr ssid) = none) :
    Represents casemap (forest.attach up this)
      (state.newServer casemap this (some up) sname ssid) := by
  have info := info_enter casemap this (some up) sname ssid state
  have entered := represents.registered.enter new (some up) newName newID
  have absent : this ∉ forest.nodes := mt (represents.live this).mpr new
  have inForest : up ∈ forest.nodes := (represents.live up).mp isUp
  have other : this ≠ up := fun same => new (same ▸ isUp)
  have linked : ∀ a, (state.newServer casemap this (some up) sname ssid).servers.lookup a =
      ((state.enter casemap this (some up) sname ssid).servers.lookup a).map fun server =>
        if a = up then { server with links := server.links ++ [this] } else server :=
    lookup_mapValues _ _
  have keeps : ∀ a, a ≠ up → (state.newServer casemap this (some up) sname ssid).info a =
      (state.enter casemap this (some up) sname ssid).info a := by
    intro a notUp
    rw [State.info, linked, State.info, Option.map_map]
    refine congrArg (Option.map · _) ?_
    funext server
    rw [Function.comp_apply, if_neg notUp]
  have perm := Forest.perm_nodes_attach this represents.distinct inForest
  refine ⟨represents.shape.attach represents.distinct ?_ ?_ fun a mem notUp => ?_, fun a => ?_,
    ?_, ?_⟩
  · rw [keeps this other, info, if_pos rfl]
  · have before := info up
    rw [if_neg other.symm] at before
    rw [← before, State.info, linked, State.info, Option.map_map, Option.map_map]
    refine congrArg (Option.map · _) ?_
    funext server
    simp only [Function.comp_apply, if_true]
    rfl
  · rw [keeps a notUp, info, if_neg fun same : a = this => absent (same ▸ mem)]
  · rw [perm.mem_iff, List.mem_cons, ← represents.live]
    exact (mem_modify _ _ _ _).trans (AList.mem_insert _)
  · rw [perm.nodup_iff]
    exact List.nodup_cons.mpr ⟨absent, represents.distinct⟩
  · refine entered.of_names rfl rfl fun a => ?_
    rw [linked, Option.map_map]
    refine congrArg (Option.map · _) ?_
    funext server
    rw [Function.comp_apply]
    split <;> rfl

omit [DecidableEq υ] in
/-- Without servers there is the empty forest, whatever the users are. -/
theorem represents_nil (casemap : Casemap) (noServers : state.servers = ∅)
    (noNames : state.byName = ∅) (noIDs : state.byID = ∅) : Represents casemap .nil state := by
  refine ⟨trivial, fun a => ?_, List.nodup_nil, fun key a => ?_, fun key a => ?_⟩
  · rw [noServers]
    exact iff_of_false (AList.notMem_empty a) List.not_mem_nil
  · rw [noServers, noNames]
    simp
  · rw [noServers, noIDs]
    simp

end Trees

/-- Three users, each on a server of its own. -/
def population : State Nat Nat :=
  { (State.initial : State Nat Nat) with
    users := (((AList.singleton 0 ⟨some 0, false⟩).insert 1 ⟨some 1, false⟩).insert 2
      ⟨some 2, false⟩ : AList fun _ : Nat => User Nat) }

/-- The services, their uplink, and a server behind it. -/
def network : State Nat Nat :=
  ((population.newServer .ascii 0 none (ascii "services") (ascii "00A")).newServer .ascii 1
    (some 0) (ascii "hub") (ascii "001")).newServer .ascii 2 (some 1) (ascii "leaf") []

theorem represents_network :
    Represents .ascii (((Forest.nil.concat 0).attach 0 1).attach 1 2) network := by
  have start : Represents .ascii .nil population := represents_nil .ascii rfl rfl rfl
  have services : Represents .ascii (Forest.nil.concat 0)
      (population.newServer .ascii 0 none (ascii "services") (ascii "00A")) :=
    start.newServer_none (by decide) (by decide) (by decide)
  have hub : Represents .ascii ((Forest.nil.concat 0).attach 0 1)
      ((population.newServer .ascii 0 none (ascii "services") (ascii "00A")).newServer .ascii 1
        (some 0) (ascii "hub") (ascii "001")) :=
    services.newServer_some (by decide +kernel) (by decide +kernel) (by decide +kernel)
      (by decide +kernel)
  exact hub.newServer_some (by decide +kernel) (by decide +kernel) (by decide +kernel)
    (by decide +kernel)

/-- The uplink splits. -/
theorem delete_takes_subtree_hub :
    ∃ after, network.delete .ascii 3 1 (ascii "split") = some after ∧
      Removes [1, 2] (some 0) network after ∧
      (∀ up place, some 0 = some up → network.servers.lookup up = some place →
        after.servers.lookup up = some { place with links := place.links.erase 1 }) ∧
      Represents .ascii (Forest.nil.concat 0) after := by
  have found : network.servers.lookup 1 =
      some ⟨ascii "hub", ascii "001", some 0, [2], [], false⟩ := rfl
  exact delete_takes_subtree represents_network found (ascii "split") (by decide)

end Anope.Servers
