import Anope.Library.Fifo
import Anope.Library.Table
import Anope.Text.Casemap

/-!
# The history of a bridge

`Relay::History`: what was last relayed for each recent message.  The map of the entries and
the queue of their keys represent one bounded map in order of insertion.
-/

namespace Anope.Bridge

open Library

/-- `History::Entry`. -/
structure HistoryEntry where
  hash : UInt64
  /-- The first code points of the rendering. -/
  preview : Str
  author : Str
  remoteThread : Str
  deriving DecidableEq, Repr

/-- `History`. -/
structure History where
  capacity : Nat
  entries : AList fun _ : Str => HistoryEntry
  order : List Str

/-- The eviction at the end of `Remember`: keys are taken from the front of the queue while
it is too long. -/
def evict {ν : Type} (capacity : Nat) :
    List Str → (AList fun _ : Str => ν) → List Str × AList fun _ : Str => ν
  | [], entries => ([], entries)
  | key :: order, entries =>
      if capacity < (key :: order).length then evict capacity order (entries.erase key)
      else (key :: order, entries)

namespace History

/-- The constructor. -/
def new (cap : Nat) : History where
  capacity := if cap = 0 then 1 else cap
  entries := ∅
  order := []

/-- `Remember`. -/
def remember (history : History) (key : Str) (entry : HistoryEntry) : History :=
  if key ∈ history.entries then
    { history with entries := Table.modify key (fun _ => entry) history.entries }
  else
    let (order, entries) :=
      evict history.capacity (history.order ++ [key]) (history.entries.insert key entry)
    { history with entries := entries, order := order }

/-- `Find`. -/
def find (history : History) (key : Str) : Option HistoryEntry :=
  history.entries.lookup key

/-- `Forget`, with what it returns.  To erase the end of the queue is undefined. -/
def forget (history : History) (key : Str) : Option (Bool × History) :=
  if key ∈ history.entries then
    if key ∈ history.order then
      some (true, { history with
        entries := history.entries.erase key
        order := history.order.erase key })
    else none
  else some (false, history)

/-- `Size`. -/
def size (history : History) : Nat :=
  history.entries.keys.length

/-- What a call makes of the history. -/
def call (history : History) : Fifo.Call Str HistoryEntry → Option History
  | .remember key entry => some (history.remember key entry)
  | .forget key => (history.forget key).map Prod.snd

/-- What calls make of the history. -/
def run (history : History) (calls : List (Fifo.Call Str HistoryEntry)) : Option History :=
  calls.foldlM call history

/-! ## The map that a history stands for -/

/-- The history has the keys of a bounded map, in their order, and its values. -/
structure Mirrors (history : History) (held : List (Fifo.Held Str HistoryEntry)) : Prop where
  order : history.order = held.map Fifo.Held.key
  lookup : ∀ key, history.entries.lookup key = Fifo.find key held
  keys : history.entries.keys.Perm history.order

section Mirrors

variable {history : History} {held : List (Fifo.Held Str HistoryEntry)} {key : Str}
  (now : Nat)

theorem Mirrors.mem_iff (mirrors : history.Mirrors held) :
    key ∈ history.entries ↔ key ∈ held.map Fifo.Held.key := by
  rw [← mirrors.order, AList.mem_keys]
  exact mirrors.keys.mem_iff

theorem Mirrors.size (mirrors : history.Mirrors held) : history.size = held.length := by
  rw [History.size, mirrors.keys.length_eq, mirrors.order, List.length_map]

/-- A queue that is not too long stays as it is. -/
theorem evict_of_le {ν : Type} {capacity : Nat} {order : List Str} (room : order.length ≤ capacity)
    (entries : AList fun _ : Str => ν) : evict capacity order entries = (order, entries) := by
  cases order with
  | nil => rfl
  | cons key order => rw [evict, if_neg (Nat.not_lt.mpr room)]

/-- With one key too many, the first one goes. -/
theorem evict_of_full {ν : Type} {capacity : Nat} {order : List Str}
    (full : (key :: order).length = capacity + 1) (entries : AList fun _ : Str => ν) :
    evict capacity (key :: order) entries = (order, entries.erase key) := by
  rw [evict, if_pos (full ▸ Nat.lt_succ_self _), evict_of_le]
  exact Nat.le_of_eq (Nat.succ.inj full)

theorem Mirrors.remember_known (mirrors : history.Mirrors held) (known : key ∈ history.entries)
    (entry : HistoryEntry) :
    (history.remember key entry).Mirrors
      (Fifo.step history.capacity now held (.remember key entry)) := by
  rw [remember, if_pos known, Fifo.step, if_pos (mirrors.mem_iff.mp known)]
  refine ⟨?_, fun other => ?_, ?_⟩
  · rw [List.map_map]
    refine mirrors.order.trans (List.map_congr_left fun element _ => ?_)
    rw [Function.comp_apply]
    split <;> rfl
  · rw [Fifo.find_map_set, ← mirrors.lookup]
    by_cases same : other = key
    · subst same
      rw [if_pos rfl]
      exact Table.lookup_modify_self other _ history.entries
    · rw [if_neg same]
      exact Table.lookup_modify_ne same _ _
  · exact (Table.keys_modify key _ history.entries) ▸ mirrors.keys

/-- The map with a new key, before keys are evicted. -/
theorem Mirrors.insert (mirrors : history.Mirrors held) (new : key ∉ history.entries)
    (entry : HistoryEntry) :
    Mirrors { history with
        entries := history.entries.insert key entry
        order := history.order ++ [key] }
      (held ++ [⟨key, now, entry⟩]) := by
  have absent : key ∉ held.map Fifo.Held.key := fun mem => new (mirrors.mem_iff.mpr mem)
  refine ⟨?_, fun other => ?_, ?_⟩
  · rw [mirrors.order, List.map_append, List.map_singleton]
  · rw [Fifo.find_concat absent, ← mirrors.lookup]
    by_cases same : other = key
    · subst same
      rw [if_pos rfl]
      exact AList.lookup_insert history.entries
    · rw [if_neg same]
      exact AList.lookup_insert_ne same
  · rw [Table.keys_insert_of_notMem new]
    exact (mirrors.keys.cons key).trans (List.perm_append_singleton key history.order).symm

/-- The map without its oldest key. -/
theorem Mirrors.erase_oldest {oldest : Fifo.Held Str HistoryEntry}
    (mirrors : history.Mirrors (oldest :: held))
    (distinct : ((oldest :: held).map Fifo.Held.key).Nodup) :
    Mirrors { history with
        entries := history.entries.erase oldest.key
        order := held.map Fifo.Held.key } held := by
  refine ⟨rfl, fun other => ?_, ?_⟩
  · rw [Fifo.find_tail distinct, ← mirrors.lookup]
    by_cases same : other = oldest.key
    · rw [if_pos same, same]
      exact AList.lookup_erase oldest.key history.entries
    · rw [if_neg same]
      exact AList.lookup_erase_ne same
  · have keys := mirrors.keys.filter fun key => decide (key ≠ oldest.key)
    have others : (held.map Fifo.Held.key).filter (fun key => decide (key ≠ oldest.key)) =
        held.map Fifo.Held.key := by
      refine List.filter_eq_self.mpr fun key mem => decide_eq_true ?_
      rintro rfl
      exact (List.nodup_cons.mp distinct).1 mem
    rw [mirrors.order, List.map_cons, List.filter_cons_of_neg (by simp), others] at keys
    rwa [Table.keys_erase_eq_filter]

theorem Mirrors.remember_new (mirrors : history.Mirrors held) (positive : 0 < history.capacity)
    (sound : Fifo.Sound history.capacity now held) (new : key ∉ history.entries)
    (entry : HistoryEntry) :
    (history.remember key entry).Mirrors
      (Fifo.step history.capacity now held (.remember key entry)) := by
  have absent : key ∉ held.map Fifo.Held.key := fun mem => new (mirrors.mem_iff.mpr mem)
  have grown := mirrors.insert now new entry
  have length : history.order.length = held.length := by rw [mirrors.order, List.length_map]
  rw [remember, if_neg new]
  rcases Fifo.room_or_full positive sound.bounded with room | ⟨oldest, younger, rfl, full⟩
  · rw [Fifo.step_remember_of_room sound absent room, evict_of_le]
    · exact grown
    · rw [List.length_append, length]
      exact room
  · have distinct : ((oldest :: (younger ++ [⟨key, now, entry⟩])).map Fifo.Held.key).Nodup := by
      have keys := grown.keys.nodup_iff.mp (AList.keys_nodup _)
      rwa [grown.order] at keys
    have order : history.order = oldest.key :: younger.map Fifo.Held.key := mirrors.order
    have tooLong : (oldest.key :: (younger.map Fifo.Held.key ++ [key])).length =
        history.capacity + 1 := by
      rw [← full, List.length_cons, List.length_append, List.length_map]
      rfl
    rw [Fifo.step_remember_of_full sound absent full, order, List.cons_append,
      evict_of_full tooLong]
    have shrunk : Mirrors { history with
          entries := (history.entries.insert key entry).erase oldest.key
          order := (younger ++ [(⟨key, now, entry⟩ : Fifo.Held Str HistoryEntry)]).map
            Fifo.Held.key }
        (younger ++ [⟨key, now, entry⟩]) := grown.erase_oldest distinct
    rwa [List.map_append, List.map_singleton] at shrunk

theorem Mirrors.forget (mirrors : history.Mirrors held) (key : Str) :
    ∃ next, history.forget key = some (decide (key ∈ history.entries), next) ∧
      next.capacity = history.capacity ∧
        next.Mirrors (Fifo.step history.capacity now held (.forget key)) := by
  have distinct : (held.map Fifo.Held.key).Nodup :=
    mirrors.order ▸ mirrors.keys.nodup_iff.mp (AList.keys_nodup _)
  rw [History.forget]
  by_cases known : key ∈ history.entries
  · have queued : key ∈ history.order := mirrors.keys.mem_iff.mp (AList.mem_keys.mp known)
    rw [if_pos known, if_pos queued, decide_eq_true known]
    refine ⟨_, rfl, rfl, ?_, fun other => ?_, ?_⟩
    · rw [Fifo.step, mirrors.order, distinct.erase_eq_filter, List.filter_map]
      refine congrArg (fun test => (held.filter test).map Fifo.Held.key) (funext fun other => ?_)
      simp [bne, beq_eq_decide]
    · rw [Fifo.step, Fifo.find_filter, ← mirrors.lookup]
      by_cases same : other = key
      · subst same
        rw [if_pos rfl]
        exact AList.lookup_erase other history.entries
      · rw [if_neg same]
        exact AList.lookup_erase_ne same
    · rw [Table.keys_erase_eq_filter, List.Nodup.erase_eq_filter]
      · refine (mirrors.keys.filter _).trans (.of_eq (List.filter_congr fun other _ => ?_))
        simp [bne, beq_eq_decide]
      · exact mirrors.keys.nodup_iff.mp (AList.keys_nodup _)
  · have absent : key ∉ held.map Fifo.Held.key := fun mem => known (mirrors.mem_iff.mpr mem)
    have same : Fifo.step history.capacity now held (.forget key) = held := by
      refine List.filter_eq_self.mpr fun element mem => decide_eq_true ?_
      rintro rfl
      exact absent (List.mem_map_of_mem mem)
    rw [if_neg known, decide_eq_false known, same]
    exact ⟨history, rfl, rfl, mirrors⟩

/-- A call does to the history what it does to the map. -/
theorem Mirrors.call (mirrors : history.Mirrors held) (positive : 0 < history.capacity)
    (sound : Fifo.Sound history.capacity now held) (call : Fifo.Call Str HistoryEntry) :
    ∃ next, history.call call = some next ∧ next.capacity = history.capacity ∧
      next.Mirrors (Fifo.step history.capacity now held call) := by
  cases call with
  | remember key entry =>
      refine ⟨_, rfl, ?_, ?_⟩
      · rw [remember]
        split <;> rfl
      · by_cases known : key ∈ history.entries
        · exact mirrors.remember_known now known entry
        · exact mirrors.remember_new now positive sound known entry
  | forget key =>
      obtain ⟨next, forgot, capacity, kept⟩ := mirrors.forget now key
      exact ⟨next, by rw [History.call, forgot]; rfl, capacity, kept⟩

end Mirrors

theorem positive_new (cap : Nat) : 0 < (new cap).capacity := by
  rw [new]
  split
  · exact Nat.one_pos
  · rename_i nonzero
    exact Nat.pos_of_ne_zero nonzero

/-- Calls do to a new history what they do to the empty map. -/
theorem mirrors_run (cap : Nat) (calls : List (Fifo.Call Str HistoryEntry)) :
    ∃ history, (new cap).run calls = some history ∧ history.capacity = (new cap).capacity ∧
      history.Mirrors (Fifo.run (new cap).capacity calls) := by
  induction calls using List.reverseRecOn with
  | nil => exact ⟨new cap, rfl, rfl, rfl, fun _ => rfl, .nil⟩
  | append_singleton calls call ih =>
      obtain ⟨history, ran, capacity, mirrors⟩ := ih
      have sound := Fifo.sound_run (positive_new cap) calls
      rw [← capacity] at sound mirrors
      obtain ⟨next, called, same, kept⟩ :=
        mirrors.call calls.length (capacity ▸ positive_new cap) sound call
      refine ⟨next, ?_, same.trans capacity, ?_⟩
      · rw [run, List.foldlM_append]
        change (new cap).run calls >>= _ = _
        rw [ran]
        change history.call call >>= pure = _
        rw [called]
        rfl
      · rwa [Fifo.run_concat, ← capacity]

/-- A history holds the youngest keys, as many as there is room for, each with what was last
remembered for it, and forgets one key at a time. -/
theorem run_eq_fifo (cap : Nat) (calls : List (Fifo.Call Str HistoryEntry)) :
    ∃ history, (new cap).run calls = some history ∧
      (∀ key, history.find key = Fifo.find key (Fifo.run (new cap).capacity calls)) ∧
      history.size = (Fifo.run (new cap).capacity calls).length ∧
      Fifo.Sound (new cap).capacity calls.length (Fifo.run (new cap).capacity calls) ∧
      (∀ entry ∈ Fifo.run (new cap).capacity calls,
        Fifo.Stands (new cap).capacity calls entry) ∧
      ∀ key, ∃ next, history.forget key = some ((history.find key).isSome, next) ∧
        ∀ other, next.find other = if other = key then none else history.find other := by
  obtain ⟨history, ran, _, mirrors⟩ := mirrors_run cap calls
  refine ⟨history, ran, mirrors.lookup, mirrors.size, Fifo.sound_run (positive_new cap) calls,
    Fifo.stands_of_mem_run (positive_new cap) calls, fun key => ?_⟩
  obtain ⟨next, forgot, _, kept⟩ := mirrors.forget 0 key
  refine ⟨next, ?_, fun other => ?_⟩
  · rw [forgot, find]
    refine congrArg (fun known => some (known, next)) (Bool.eq_iff_iff.mpr ?_)
    rw [decide_eq_true_iff, AList.lookup_isSome]
  · exact (kept.lookup other).trans ((Fifo.find_filter other).trans
      (congrArg (ite _ none) (mirrors.lookup other).symm))

end History

end Anope.Bridge
