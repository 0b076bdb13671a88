import Anope.Access.Commands
import Mathlib.Data.List.Lex

/-!
# Flags on an access list

`DoModify` of `cs_flags`.  The flags of an existing entry are read back from the text
that shows them; a flags text sets or removes flags that the source has the privileges
of.
-/

namespace Anope.Access

open Anope.Text

variable {χ ν : Type} [DecidableEq χ] [DecidableEq ν]

/-! ## The command -/

/-- `FlagsChanAccess::DetermineFlags`. -/
def Grant.determineFlags (systems : Systems) : Grant → List UInt8
  | flags set => set
  | grant =>
      let buffer := (systems.defaultFlags.filter fun entry => grant.hasPriv systems entry.1).map
        Prod.snd
      if buffer.isEmpty then ascii "(none)" else buffer

/-- `defaultFlags[name]`, which puts in a flag of zero where there is none. -/
def touchFlag (table : List (Str × UInt8)) (name : Str) : List (Str × UInt8) :=
  if (table.lookup name).isSome then table
  else table.takeWhile (·.1 < name) ++ (name, 0) :: table.dropWhile (·.1 < name)

/-- Whether the source holds a privilege: a founder does. -/
def Source.holds (source : Source ν) (priv : Str) : Bool :=
  source.hasPriv priv || source.founder

/-- Whether the source may set the flag of a privilege. -/
def Source.maySet (source : Source ν) (priv : Str) : Bool :=
  source.holds priv || source.modifyPriv

/-- `insert` or `erase` of a set of flags. -/
def putFlag (add : Bool) (flag : UInt8) (current : List UInt8) : List UInt8 :=
  if add then current.insert flag else current.filter (· ≠ flag)

/-- A single flag of a flags text: the first privilege with it decides. -/
def setFlag (source : Source ν) (table : List (Str × UInt8)) (add : Bool) (flag : UInt8)
    (current : List UInt8) : List UInt8 :=
  match table.find? fun entry => entry.2 = flag with
  | none => current
  | some (priv, _) => if source.maySet priv then putFlag add flag current else current

/-- `*` of a flags text. -/
def setAll (source : Source ν) (table : List (Str × UInt8)) (add : Bool) (current : List UInt8) :
    List UInt8 :=
  table.foldl
    (fun current entry =>
      if add = current.contains entry.2 then current
      else if source.maySet entry.1 then putFlag add entry.2 current else current)
    current

/-- The loop over a flags text: the flags, and `defaultFlags`, which may grow. -/
def modifyFlags (world : World χ ν) (systems : Systems) (source : Source ν) :
    Str → Bool → List (Str × UInt8) → List UInt8 → List UInt8 × List (Str × UInt8)
  | [], _, table, current => (current, table)
  | f :: flags, add, table, current =>
      if f = 43 then modifyFlags world systems source flags true table current
      else if f = 45 then modifyFlags world systems source flags false table current
      else if f = 42 then
        modifyFlags world systems source flags add table (setAll source table add current)
      else
        match world.findPrivilege systems (f :: flags) with
        | none =>
            modifyFlags world systems source flags add table (setFlag source table add f current)
        | some name =>
            let table := touchFlag table name
            let flag := (table.lookup name).getD 0
            -- the name of a privilege with a flag is the rest of the text
            if flag ≠ 0 then (setFlag source table add flag current, table)
            else modifyFlags world systems source flags add table
              (setFlag source table add f current)

/-- A flags command, the access list and `defaultFlags` that it leaves, and the entry it
makes. -/
structure Modified (ν : Type) extends Result ν where
  entry : Option (Entry ν)
  defaultFlags : List (Str × UInt8)

/-- An entry of another system as high as the highest of the source may not be
changed. -/
def Source.mayNotModify (systems : Systems) (source : Source ν) (entry : Entry ν) : Bool :=
  match source.highest with
  | none => false
  | some highest =>
      (match highest.grant with
        | .flags _ => false
        | _ => true) &&
        !source.founder && highest.grant.le systems entry.grant && !source.modifyPriv

/-- The entry for a target. -/
def existing (world : World χ ν) (target : Target ν) (access : List (Entry ν)) :
    Option (Entry ν) :=
  access.reverse.find? (target.isFor world)

/-- The flags that the loop starts from. -/
def startFlags (systems : Systems) (current : Option (Entry ν)) : List UInt8 :=
  match current with
  | none => []
  | some entry => entry.grant.determineFlags systems

/-- The end of `DoModify`, with the flags that the loop left. -/
def finishModify (world : World χ ν) (source : Source ν) (provider : Bool) (target : Target ν)
    (current : Option (Entry ν)) (access : List (Entry ν)) (set : List UInt8)
    (table : List (Str × UInt8)) : Modified ν :=
  let left := (access.reverse.eraseP (target.isFor world)).reverse
  if set.isEmpty then
    if current.isSome then ⟨⟨left, .removed⟩, none, table⟩
    else ⟨⟨access, .refused (.notFound target.mask)⟩, none, table⟩
  else if !provider then ⟨⟨access, .silent⟩, none, table⟩
  else
    let entry :=
      { newEntry world source target (.flags set) with
        description :=
          if target.description.isEmpty then (current.map Entry.description).getD []
          else target.description
        lastSeen := (current.map Entry.lastSeen).getD 0 }
    ⟨⟨left ++ [entry], .added⟩, some entry, table⟩

/-- `DoModify`. -/
def doModify (world : World χ ν) (systems : Systems) (source : Source ν) (ci : χ)
    (provider : Bool) (mask flags description : Str) (access : List (Entry ν)) : Modified ν :=
  let refused (reply : Reply) : Modified ν :=
    ⟨⟨access, .refused reply⟩, none, systems.defaultFlags⟩
  if flags.isEmpty then refused .syntaxError
  else
    match findTarget world ci mask description with
    | .error reply => refused reply
    | .ok target =>
        let current := existing world target access
        if current.any (source.mayNotModify systems) then refused .accessDenied
        else
          match limitReply world ci access with
          | some reply => refused reply
          | none =>
              let modified := modifyFlags world systems source flags true systems.defaultFlags
                (startFlags systems current)
              finishModify world source provider target current access modified.1 modified.2

/-! ## What a flags text asks for -/

/-- One request of a flags text, with `defaultFlags` at that point. -/
inductive Request where
  /-- A single flag. -/
  | one (add : Bool) (table : List (Str × UInt8)) (flag : UInt8)
  /-- All flags. -/
  | all (add : Bool) (table : List (Str × UInt8))

namespace Request

/-- Whether a request sets flags. -/
def add : Request → Bool
  | one add _ _ | all add _ => add

/-- What a request does. -/
def apply (source : Source ν) (current : List UInt8) : Request → List UInt8
  | one add table flag => setFlag source table add flag current
  | all add table => setAll source table add current

/-- A request is for a flag of a privilege that the source may set. -/
def Concerns (may : Str → Bool) (c : UInt8) : Request → Prop
  | one _ table flag =>
      flag = c ∧ ∃ priv, table.find? (fun entry => entry.2 = c) = some (priv, c) ∧
        may priv = true
  | all _ table => ∃ priv, (priv, c) ∈ table ∧ may priv = true

end Request

/-- The requests of a flags text. -/
def requests (world : World χ ν) (systems : Systems) :
    Str → Bool → List (Str × UInt8) → List Request
  | [], _, _ => []
  | f :: flags, add, table =>
      if f = 43 then requests world systems flags true table
      else if f = 45 then requests world systems flags false table
      else if f = 42 then .all add table :: requests world systems flags add table
      else
        match world.findPrivilege systems (f :: flags) with
        | none => .one add table f :: requests world systems flags add table
        | some name =>
            let table := touchFlag table name
            let flag := (table.lookup name).getD 0
            if flag ≠ 0 then [.one add table flag]
            else .one add table f :: requests world systems flags add table

omit [DecidableEq χ] [DecidableEq ν] in
/-- The loop carries out the requests one after the other. -/
theorem modifyFlags_eq (world : World χ ν) (systems : Systems) (source : Source ν) (flags : Str)
    (add : Bool) (table : List (Str × UInt8)) (current : List UInt8) :
    (modifyFlags world systems source flags add table current).1 =
      (requests world systems flags add table).foldl (Request.apply source) current := by
  induction flags generalizing add table current with
  | nil => rfl
  | cons f flags ih =>
      rw [modifyFlags, requests]
      split
      · exact ih true table current
      · split
        · exact ih false table current
        · split
          · exact ih add table _
          · split
            · exact ih add table _
            · dsimp only
              split
              · rfl
              · exact ih add _ _

omit [DecidableEq χ] [DecidableEq ν] in
theorem mem_putFlag_iff {add : Bool} {flag c : UInt8} {current : List UInt8} :
    c ∈ putFlag add flag current ↔ if flag = c then add = true else c ∈ current := by
  cases add with
  | true =>
      rw [putFlag, if_pos rfl, List.mem_insert_iff]
      split
      · rename_i same
        exact iff_of_true (.inl same.symm) rfl
      · rename_i different
        exact or_iff_right (Ne.symm different)
  | false =>
      rw [putFlag, if_neg Bool.false_ne_true, List.mem_filter]
      split
      · rename_i same
        simp [same]
      · rename_i different
        simp [Ne.symm different]

section Requests

variable {source : Source ν} {c : UInt8}

omit [DecidableEq ν] in
theorem mem_setFlag_iff {table : List (Str × UInt8)} {add : Bool} {flag : UInt8}
    {current : List UInt8} :
    c ∈ setFlag source table add flag current ↔
      Request.Concerns source.maySet c (.one add table flag) ∧ add = true ∨
        ¬ Request.Concerns source.maySet c (.one add table flag) ∧ c ∈ current := by
  rw [setFlag, Request.Concerns]
  cases found : table.find? fun entry => entry.2 = flag with
  | none =>
      have unconcerned : ¬ (flag = c ∧ ∃ priv, table.find? (fun entry => entry.2 = c) =
          some (priv, c) ∧ source.maySet priv = true) := by
        rintro ⟨rfl, priv, is, _⟩
        exact nomatch found.symm.trans is
      simp only [unconcerned, false_and, not_false_eq_true, true_and, false_or]
  | some entry =>
      obtain ⟨priv, other⟩ := entry
      have isFlag : other = flag := by simpa using List.find?_some found
      subst isFlag
      have concerned : (other = c ∧ ∃ priv, table.find? (fun entry => entry.2 = c) =
          some (priv, c) ∧ source.maySet priv = true) ↔
            other = c ∧ source.maySet priv = true := by
        refine and_congr_right fun same => ?_
        subst same
        rw [found]
        constructor
        · rintro ⟨_, ⟨⟩, may⟩
          exact may
        · exact fun may => ⟨priv, rfl, may⟩
      rw [concerned]
      dsimp only
      cases may : source.maySet priv with
      | false => simp only [Bool.false_eq_true, if_false, and_false, false_and, false_or,
          not_false_eq_true, true_and]
      | true =>
          rw [if_pos rfl, mem_putFlag_iff]
          by_cases same : other = c <;> simp [same]

omit [DecidableEq ν] in
theorem mem_setAll_iff {table : List (Str × UInt8)} {add : Bool} {current : List UInt8} :
    c ∈ setAll source table add current ↔
      (∃ priv, (priv, c) ∈ table ∧ source.maySet priv = true) ∧ add = true ∨
        ¬ (∃ priv, (priv, c) ∈ table ∧ source.maySet priv = true) ∧ c ∈ current := by
  rw [setAll]
  induction table generalizing current with
  | nil => simp
  | cons entry table ih =>
      obtain ⟨priv, flag⟩ := entry
      have step : (c ∈ if add = current.contains flag then current
          else if source.maySet priv then putFlag add flag current else current) ↔
            if flag = c ∧ source.maySet priv = true then add = true else c ∈ current := by
        by_cases skip : add = current.contains flag
        · rw [if_pos skip]
          split
          · rename_i here
            rw [skip, ← here.1, List.contains_iff_mem]
          · exact Iff.rfl
        · rw [if_neg skip]
          cases source.maySet priv with
          | false => simp
          | true =>
              rw [if_pos rfl, mem_putFlag_iff]
              simp
      rw [List.foldl_cons, ih, step]
      by_cases here : flag = c ∧ source.maySet priv = true
      · have concerned : ∃ other, (other, c) ∈ (priv, flag) :: table ∧
            source.maySet other = true :=
          ⟨priv, by rw [here.1]; exact List.mem_cons_self, here.2⟩
        rw [if_pos here]
        constructor
        · rintro (⟨_, is⟩ | ⟨_, is⟩) <;> exact .inl ⟨concerned, is⟩
        · rintro (⟨_, is⟩ | ⟨unconcerned, _⟩)
          · by_cases later : ∃ other, (other, c) ∈ table ∧ source.maySet other = true
            · exact .inl ⟨later, is⟩
            · exact .inr ⟨later, is⟩
          · exact absurd concerned unconcerned
      · have concerned : (∃ other, (other, c) ∈ (priv, flag) :: table ∧
              source.maySet other = true) ↔
            ∃ other, (other, c) ∈ table ∧ source.maySet other = true := by
          refine exists_congr fun other => and_congr_left fun may => ?_
          rw [List.mem_cons, or_iff_right]
          rintro ⟨⟩
          exact here ⟨rfl, may⟩
        rw [if_neg here, concerned]

omit [DecidableEq ν] in
/-- A request decides about the flags that it concerns and leaves the others. -/
theorem mem_apply_iff {request : Request} {current : List UInt8} :
    c ∈ request.apply source current ↔
      request.Concerns source.maySet c ∧ request.add = true ∨
        ¬ request.Concerns source.maySet c ∧ c ∈ current := by
  cases request with
  | one add table flag => exact mem_setFlag_iff
  | all add table => exact mem_setAll_iff

omit [DecidableEq ν] in
/-- A flag that no request concerns stays as it was. -/
theorem mem_foldl_of_unconcerned {list : List Request} {current : List UInt8}
    (unconcerned : ∀ request ∈ list, ¬ request.Concerns source.maySet c) :
    c ∈ list.foldl (Request.apply source) current ↔ c ∈ current := by
  induction list generalizing current with
  | nil => exact Iff.rfl
  | cons request list ih =>
      obtain ⟨here, rest⟩ := List.forall_mem_cons.mp unconcerned
      rw [List.foldl_cons, ih rest, mem_apply_iff]
      simp only [here, false_and, false_or, not_false_eq_true, true_and]

omit [DecidableEq ν] in
/-- A flag that some request concerns is there only when one sets it. -/
theorem add_of_mem_foldl {list : List Request} {current : List UInt8}
    (mem : c ∈ list.foldl (Request.apply source) current)
    (concerned : ∃ request ∈ list, request.Concerns source.maySet c) :
    ∃ request ∈ list, request.Concerns source.maySet c ∧ request.add = true := by
  induction list generalizing current with
  | nil => exact nomatch concerned.choose_spec.1
  | cons request list ih =>
      by_cases later : ∃ request ∈ list, request.Concerns source.maySet c
      · obtain ⟨found, isIn, rest⟩ := ih mem later
        exact ⟨found, List.mem_cons_of_mem _ isIn, rest⟩
      · have here : request.Concerns source.maySet c := by
          obtain ⟨found, isIn, concerns⟩ := concerned
          rcases List.mem_cons.mp isIn with rfl | isIn
          · exact concerns
          · exact absurd ⟨found, isIn, concerns⟩ later
        rw [List.foldl_cons, mem_foldl_of_unconcerned fun found isIn concerns =>
          later ⟨found, isIn, concerns⟩, mem_apply_iff] at mem
        rcases mem with ⟨_, add⟩ | ⟨unconcerned, _⟩
        · exact ⟨request, List.mem_cons_self, here, add⟩
        · exact absurd here unconcerned

end Requests

/-! ## What the flags of an entry come from -/

/-- A flag corresponds to a privilege that an entry has. -/
def Grant.Had (systems : Systems) (grant : Grant) (c : UInt8) : Prop :=
  ∃ priv, (priv, c) ∈ systems.defaultFlags ∧ grant.hasPriv systems priv = true

/-- The characters in the flags of an entry that are no flags of its privileges: flags
that no privilege has, and the text for an entry of another system without flags. -/
def Grant.stray (systems : Systems) : Grant → List UInt8
  | flags set => set.filter fun c => !systems.defaultFlags.any fun entry => entry.2 == c
  | grant =>
      if systems.defaultFlags.any fun entry => grant.hasPriv systems entry.1 then []
      else ascii "(none)"

theorem lookup_of_mem {table : List (Str × UInt8)} (distinct : (table.map Prod.fst).Nodup)
    {priv : Str} {flag : UInt8} (mem : (priv, flag) ∈ table) : table.lookup priv = some flag := by
  induction table with
  | nil => exact nomatch mem
  | cons entry table ih =>
      obtain ⟨name, other⟩ := entry
      obtain ⟨new, distinct⟩ := List.nodup_cons.mp distinct
      rw [List.lookup_cons]
      rcases List.mem_cons.mp mem with same | isIn
      · cases same
        rw [beq_self_eq_true]
      · have different : (priv == name) = false := beq_eq_false_iff_ne.mpr fun same =>
          new (List.mem_map.mpr ⟨(priv, flag), isIn, same⟩)
        rw [different]
        exact ih distinct isIn

/-- An entry of `cs_flags` has the privileges of its flags. -/
theorem had_flags_iff (systems : Systems) (set : List UInt8) (c : UInt8) :
    (Grant.flags set).Had systems c ↔ c ∈ set ∧ ∃ priv, (priv, c) ∈ systems.defaultFlags := by
  rw [Grant.Had, and_comm, exists_and_right.symm]
  refine exists_congr fun priv => and_congr_right fun mem => ?_
  rw [Grant.hasPriv, lookup_of_mem systems.distinct mem, Option.any_some, List.contains_iff_mem]

theorem any_flag_iff (systems : Systems) (c : UInt8) :
    (systems.defaultFlags.any fun entry => entry.2 == c) = true ↔
      ∃ priv, (priv, c) ∈ systems.defaultFlags := by
  rw [List.any_eq_true]
  constructor
  · rintro ⟨⟨priv, flag⟩, mem, same⟩
    exact ⟨priv, eq_of_beq same ▸ mem⟩
  · exact fun ⟨priv, mem⟩ => ⟨(priv, c), mem, beq_self_eq_true c⟩

/-- The flags read back are those of the privileges of the entry, or stray ones. -/
theorem determineFlags_spec (systems : Systems) (grant : Grant) (c : UInt8) :
    (c ∈ grant.determineFlags systems ↔ grant.Had systems c ∨ c ∈ grant.stray systems) ∧
      (c ∈ grant.stray systems → ¬ grant.Had systems c) := by
  have other : ∀ held : Str → Bool,
      let buffer := (systems.defaultFlags.filter fun entry => held entry.1).map Prod.snd
      let stray := if systems.defaultFlags.any fun entry => held entry.1 then []
        else ascii "(none)"
      let had := ∃ priv, (priv, c) ∈ systems.defaultFlags ∧ held priv = true
      (c ∈ (if buffer.isEmpty then ascii "(none)" else buffer) ↔ had ∨ c ∈ stray) ∧
        (c ∈ stray → ¬ had) := by
    intro held
    dsimp only
    have inBuffer : c ∈ (systems.defaultFlags.filter fun entry => held entry.1).map Prod.snd ↔
        ∃ priv, (priv, c) ∈ systems.defaultFlags ∧ held priv = true := by
      simp only [List.mem_map, List.mem_filter, Prod.exists, exists_eq_right]
    cases any : systems.defaultFlags.any fun entry => held entry.1 with
    | true =>
        obtain ⟨⟨priv, flag⟩, mem, is⟩ := List.any_eq_true.mp any
        have nonempty : ((systems.defaultFlags.filter fun entry => held entry.1).map
            Prod.snd).isEmpty = false :=
          List.isEmpty_eq_false_iff.mpr (List.ne_nil_of_mem
            (List.mem_map_of_mem (List.mem_filter.mpr ⟨mem, is⟩)))
        rw [nonempty, if_neg Bool.false_ne_true, if_pos rfl, inBuffer]
        exact ⟨(or_iff_left List.not_mem_nil).symm, fun mem => nomatch mem⟩
    | false =>
        have none : ¬ ∃ priv, (priv, c) ∈ systems.defaultFlags ∧ held priv = true :=
          fun ⟨priv, mem, is⟩ =>
            absurd (List.any_eq_true.mpr ⟨(priv, c), mem, is⟩) (ne_true_of_eq_false any)
        have isNil : systems.defaultFlags.filter (fun entry => held entry.1) = [] :=
          List.filter_eq_nil_iff.mpr (List.any_eq_false.mp any)
        rw [isNil, if_neg Bool.false_ne_true]
        exact ⟨(or_iff_right none).symm, fun _ => none⟩
  cases grant with
  | flags set =>
      rw [had_flags_iff, Grant.determineFlags, Grant.stray, List.mem_filter, ← any_flag_iff]
      cases systems.defaultFlags.any fun entry => entry.2 == c <;> simp
  | access level => exact other _
  | xop type => exact other _

/-! ## Whether the flags are justified -/

section Justified

variable (world : World χ ν) (systems : Systems) (source : Source ν)

/-- A flag corresponds to a privilege that the existing entry has, or the flags text sets
it and it corresponds to a privilege that the source holds. -/
def Justified (flags : Str) (current : Option (Entry ν)) (c : UInt8) : Prop :=
  (∃ entry, current = some entry ∧ entry.grant.Had systems c) ∨
    ∃ request ∈ requests world systems flags true systems.defaultFlags,
      request.Concerns source.holds c ∧ request.add = true

/-- The characters that the existing entry leaves in the flags without a privilege. -/
def strayOf (current : Option (Entry ν)) : List UInt8 :=
  match current with
  | none => []
  | some entry => entry.grant.stray systems

/-- The flags text sets or takes off a flag of a privilege that the source holds. -/
def Settled (flags : Str) (c : UInt8) : Prop :=
  ∃ request ∈ requests world systems flags true systems.defaultFlags, request.Concerns source.holds c

omit [DecidableEq χ] [DecidableEq ν] in
/-- All flags that the loop leaves are justified exactly when the flags text settles the
stray ones. -/
theorem justified_iff_settled (noOverride : source.modifyPriv = false) (flags : Str)
    (current : Option (Entry ν)) :
    (∀ c ∈ (modifyFlags world systems source flags true systems.defaultFlags
        (startFlags systems current)).1, Justified world systems source flags current c) ↔
      ∀ c ∈ strayOf systems current, Settled world systems source flags c := by
  have startIff : ∀ c, c ∈ startFlags systems current ↔
      (∃ entry, current = some entry ∧ entry.grant.Had systems c) ∨
        c ∈ strayOf systems current := by
    intro c
    cases current with
    | none => exact iff_of_false (fun mem => nomatch mem) (by simp [strayOf])
    | some entry =>
        simp only [startFlags, strayOf, (determineFlags_spec systems entry.grant c).1,
          Option.some_inj, exists_eq_left']
  have held : source.maySet = source.holds := by
    funext priv
    rw [Source.maySet, noOverride, Bool.or_false]
  rw [modifyFlags_eq]
  constructor
  · intro all c stray
    by_contra unsettled
    have mem := (mem_foldl_of_unconcerned fun request isIn concerns =>
      unsettled ⟨request, isIn, held ▸ concerns⟩).mpr ((startIff c).mpr (.inr stray))
    rcases all c mem with ⟨entry, rfl, had⟩ | ⟨request, isIn, concerns, _⟩
    · exact (determineFlags_spec systems entry.grant c).2 stray had
    · exact unsettled ⟨request, isIn, concerns⟩
  · intro settled c mem
    by_cases concerned : Settled world systems source flags c
    · exact .inr (held ▸ add_of_mem_foldl mem (held ▸ concerned))
    · rw [mem_foldl_of_unconcerned fun request isIn concerns =>
        concerned ⟨request, isIn, held ▸ concerns⟩] at mem
      rcases (startIff c).mp mem with had | stray
      · exact .inl had
      · exact absurd (settled c stray) concerned

variable (ci : χ) (provider : Bool) (mask flags description : Str) (access : List (Entry ν))

/-- Every flag of the entry that the command makes is justified. -/
def AllJustified : Prop :=
  ∀ target entry set, findTarget world ci mask description = .ok target →
    (doModify world systems source ci provider mask flags description access).entry = some entry →
    entry.grant = .flags set →
      ∀ c ∈ set, Justified world systems source flags (existing world target access) c

/-- The command comes to the loop over the flags text, with an entry for its target or
without one. -/
def Reaches (target : Target ν) : Prop :=
  flags ≠ [] ∧ findTarget world ci mask description = .ok target ∧
    (existing world target access).any (source.mayNotModify systems) = false ∧
    ¬ (world.accessMax ≠ 0 ∧ world.accessMax ≤ access.length)

/-- Where the loop ends with flags, they are those of the new entry. -/
theorem doModify_entry_of_reaches {target : Target ν}
    (reaches : Reaches world systems source ci mask flags description access target) :
    let set := (modifyFlags world systems source flags true systems.defaultFlags
      (startFlags systems (existing world target access))).1
    ((doModify world systems source ci provider mask flags description access).entry.map
      Entry.grant) = if set ≠ [] ∧ provider = true then some (.flags set) else none := by
  obtain ⟨nonempty, isTarget, allowed, notFull⟩ := reaches
  dsimp only
  rw [doModify, if_neg (by simpa using nonempty)]
  simp only [isTarget, allowed, Bool.false_eq_true, if_false, limitReply_eq, if_neg notFull,
    finishModify, List.isEmpty_iff]
  cases provider with
  | false =>
      split
      · split <;> simp
      · simp
  | true =>
      split
      · rename_i isNil
        split <;> simp [isNil]
      · rename_i notNil
        simp [notNil, newEntry]

/-- Without the loop there is no entry. -/
theorem doModify_entry_of_not_reaches {target : Target ν}
    (isTarget : findTarget world ci mask description = .ok target)
    (stops : ¬ Reaches world systems source ci mask flags description access target) :
    (doModify world systems source ci provider mask flags description access).entry = none := by
  rw [doModify]
  by_cases empty : flags.isEmpty = true
  · rw [if_pos empty]
  · rw [if_neg empty]
    simp only [isTarget]
    cases allowed : (existing world target access).any (source.mayNotModify systems) with
    | true => rfl
    | false =>
        by_cases full : world.accessMax ≠ 0 ∧ world.accessMax ≤ access.length
        · simp only [limitReply_eq, if_pos full, Bool.false_eq_true, if_false]
        · exact absurd ⟨by simpa using empty, isTarget, allowed, full⟩ stops

/-- FLAGS grants nothing that was not asked for or already held exactly when it leaves no
stray flags of an existing entry in the new one. -/
theorem doModify_justified_iff (noOverride : source.modifyPriv = false) :
    AllJustified world systems source ci provider mask flags description access ↔
      ¬ (provider = true ∧ ∃ target,
        Reaches world systems source ci mask flags description access target ∧
          ∃ c ∈ strayOf systems (existing world target access),
            ¬ Settled world systems source flags c) := by
  constructor
  · rintro all ⟨rfl, target, reaches, c, stray, unsettled⟩
    have granted := doModify_entry_of_reaches world systems source ci true mask flags description
      access reaches
    have justified := justified_iff_settled world systems source noOverride flags
      (existing world target access)
    dsimp only at granted
    by_cases isNil : (modifyFlags world systems source flags true systems.defaultFlags
        (startFlags systems (existing world target access))).1 = []
    · rw [isNil] at justified
      exact unsettled (justified.mp (fun c mem => nomatch mem) c stray)
    · rw [if_pos ⟨isNil, rfl⟩, Option.map_eq_some_iff] at granted
      obtain ⟨entry, isEntry, grant⟩ := granted
      exact unsettled (justified.mp (all target entry _ reaches.2.1 isEntry grant) c stray)
  · intro settled target entry set isTarget isEntry grant
    by_cases reaches : Reaches world systems source ci mask flags description access target
    · have granted := doModify_entry_of_reaches world systems source ci provider mask flags
        description access reaches
      rw [isEntry, Option.map_some, grant] at granted
      dsimp only at granted
      split at granted
      · rename_i is
        cases granted
        refine (justified_iff_settled world systems source noOverride flags
          (existing world target access)).mpr fun c stray => ?_
        by_contra unsettled
        exact settled ⟨is.2, target, reaches, c, stray, unsettled⟩
      · exact nomatch granted
    · rw [doModify_entry_of_not_reaches world systems source ci provider mask flags description
        access isTarget reaches] at isEntry
      exact nomatch isEntry

end Justified

/-! ### An entry without flags -/

open AddCommand (accountEntry twoAccounts)

/-- `VOICE` from level 3 and `OP` from level 5, with flags. -/
def voiceAndOp : Systems where
  privileges := [ascii "VOICE", ascii "OP"]
  getLevel := fun priv =>
    if priv = ascii "VOICE" then 3 else if priv = ascii "OP" then 5 else accessInvalid
  defaultLevels := []
  order := []
  permissions := []
  defaultFlags := [(ascii "OP", 111), (ascii "VOICE", 118)]
  distinct := by decide

/-- A source with level 3. -/
def voiced : Source Nat where
  nick := ascii "b"
  highest := some (accountEntry 1 3)
  founder := false
  hasPriv := fun priv => priv = ascii "VOICE"
  modifyPriv := false

/-- An entry of `cs_flags` with the flag of `VOICE`. -/
def voiceEntry : Entry Nat :=
  { accountEntry 0 0 with grant := .flags [118] }

/-- An entry with the flag of `VOICE` keeps it. -/
theorem doModify_justified_voice :
    AllJustified (twoAccounts 0) voiceAndOp voiced () true (ascii "a") (ascii "+o") []
      [voiceEntry] := by
  refine (doModify_justified_iff _ _ _ _ _ _ _ _ _ rfl).mpr ?_
  rintro ⟨_, target, ⟨_, isTarget, _⟩, c, stray, _⟩
  cases isTarget
  exact nomatch (show c ∈ [] from stray)


/-- Setting the flag of `VOICE` on an entry of level 1, which has no flags, gives it the
flag of `OP` as well: the `o` of the text for no flags. -/
theorem not_doModify_justified :
    ¬ AllJustified (twoAccounts 0) voiceAndOp voiced () true (ascii "a") (ascii "+v") []
      [accountEntry 0 1] := by
  intro all
  have reaches : Reaches (twoAccounts 0) voiceAndOp voiced () (ascii "a") (ascii "+v") []
      [accountEntry 0 1] ⟨ascii "a", some 0, []⟩ :=
    ⟨by decide, rfl, rfl, by decide⟩
  have granted := doModify_entry_of_reaches _ _ _ _ true _ _ _ _ reaches
  obtain ⟨entry, isEntry, grant⟩ := Option.map_eq_some_iff.mp granted
  rcases all _ entry _ rfl isEntry grant 111 (by decide) with
    ⟨_, ⟨⟩, priv, mem, held⟩ | ⟨request, mem, concerns, _⟩
  · -- The entry of level 1 has no privilege.
    rcases List.mem_cons.mp mem with same | mem
    · obtain rfl : priv = ascii "OP" := congrArg Prod.fst same
      exact absurd held (by decide)
    · cases congrArg Prod.snd (List.mem_singleton.mp mem)
  · -- The text asks for `v` alone.
    cases List.mem_singleton.mp (show request ∈ [.one true voiceAndOp.defaultFlags 118] from mem)
    exact nomatch concerns.1

end Anope.Access
