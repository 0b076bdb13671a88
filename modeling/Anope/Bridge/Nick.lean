import Anope.Bridge.Markdown
import Mathlib.Data.List.DropRight

/-!
# Nicknames from display names

`Relay::SanitiseNick` keeps the letters and digits of a display name, and what looks like one, up
to a budget.  Everything else becomes an underscore, one for each run, and a name of which nothing
is kept becomes `bridge`.
-/

namespace Anope.Bridge

/-! ## Code points -/

/-- `Relay::FoldToAscii`; zero if the code point imitates no character of ASCII. -/
def foldToAscii (codepoint : Nat) : UInt8 :=
  if 0xFF01 ≤ codepoint ∧ codepoint ≤ 0xFF5E then UInt8.ofNat (codepoint - 0xFEE0)
  else if 0x1D400 ≤ codepoint ∧ codepoint ≤ 0x1D6A3 then
    let index := (codepoint - 0x1D400) % 52
    UInt8.ofNat (if index < 26 then 65 + index else 97 + (index - 26))
  else if 0x1D7CE ≤ codepoint ∧ codepoint ≤ 0x1D7FF then
    UInt8.ofNat (48 + (codepoint - 0x1D7CE) % 10)
  else
    match codepoint with
    | 0x2102 | 0x212D => 67
    | 0x210A => 103
    | 0x210B | 0x210C | 0x210D => 72
    | 0x210E => 104
    | 0x2110 | 0x2111 => 73
    | 0x2112 => 76
    | 0x2113 => 108
    | 0x2115 => 78
    | 0x2119 => 80
    | 0x211A => 81
    | 0x211B | 0x211C | 0x211D => 82
    | 0x2124 | 0x2128 => 90
    | 0x212C => 66
    | 0x212F => 101
    | 0x2130 => 69
    | 0x2131 => 70
    | 0x2133 => 77
    | 0x2134 => 111
    | _ => 0

/-- The length of a sequence and the bits of its first byte, told by that byte. -/
def sequenceOf (lead : UInt8) : Nat × Nat :=
  if 0xF0 ≤ lead then (4, (lead &&& 0x07).toNat)
  else if 0xE0 ≤ lead then (3, (lead &&& 0x0F).toNat)
  else if 0xC0 ≤ lead then (2, (lead &&& 0x1F).toNat)
  else (1, lead.toNat)

/-- The code point with the bits of the bytes that continue it, if they do. -/
def continueWith : Nat → Str → Option Nat
  | codepoint, [] => some codepoint
  | codepoint, cont :: conts =>
      if cont &&& 0xC0 ≠ 0x80 then none
      else continueWith (codepoint <<< 6 ||| (cont &&& 0x3F).toNat) conts

/-- The code point at a place, and how many bytes follow its first one.  A malformed sequence is
one byte. -/
def decode (lead : UInt8) (rest : Str) : Nat × Nat :=
  let (length, bits) := sequenceOf lead
  if rest.length + 1 < length then (lead.toNat, 0)
  else
    match continueWith bits (rest.take (length - 1)) with
    | some codepoint => (codepoint, length - 1)
    | none => (lead.toNat, 0)

/-- What is kept of a code point. -/
def keptOf (codepoint : Nat) : Option UInt8 :=
  let chr := if codepoint < 0x80 then UInt8.ofNat codepoint else foldToAscii codepoint
  if chr ≠ 0 ∧ isAlnum chr then some chr else none

/-! ## The name -/

/-- A code point is added to a name. -/
def pushKept (base : Str) (kept : Option UInt8) : Str :=
  match kept with
  | some chr => base ++ [chr]
  | none => if base ≠ [] ∧ base.getLast? ≠ some 95 then base ++ [95] else base

/-- The loop of `SanitiseNick`, from a place in the display name on. -/
def sanitiseFrom (budget : Nat) (base : Str) : Str → Str
  | [] => base
  | lead :: rest =>
      if budget ≤ base.length then base
      else
        let (codepoint, more) := decode lead rest
        sanitiseFrom budget (pushKept base (keptOf codepoint)) (rest.drop more)
  termination_by raw => raw.length
  decreasing_by
    rw [List.length_drop]
    exact Nat.lt_succ_of_le (Nat.sub_le _ _)

/-- `Relay::SanitiseNick`. -/
def sanitiseNick (raw : Str) (budget : Nat) : Str :=
  let base := (sanitiseFrom budget [] raw).rdropWhile (· = 95)
  if base = [] then ascii "bridge" else base

/-! ## What a base is -/

/-- A base of a nickname: letters, digits and underscores, of which none stands at an end or beside
another one. -/
structure IsNickBase (budget : Nat) (base : Str) : Prop where
  nonempty : base ≠ []
  fits : base.length ≤ budget
  chars : ∀ chr ∈ base, isAlnum chr = true ∨ chr = 95
  noLeading : base.head? ≠ some 95
  noTrailing : base.getLast? ≠ some 95
  noDoubled : ¬[95, 95] <:+: base

/-- What the loop has made of a name. -/
structure Growing (base : Str) : Prop where
  chars : ∀ chr ∈ base, isAlnum chr = true ∨ chr = 95
  noLeading : base.head? ≠ some 95
  noDoubled : ¬[95, 95] <:+: base

/-- The code points of a display name, as they are decoded. -/
def codepoints : Str → List Nat
  | [] => []
  | lead :: rest =>
      let (codepoint, more) := decode lead rest
      codepoint :: codepoints (rest.drop more)
  termination_by raw => raw.length
  decreasing_by
    rw [List.length_drop]
    exact Nat.lt_succ_of_le (Nat.sub_le _ _)

/-- Something of a display name is kept. -/
def Usable (raw : Str) : Prop :=
  ∃ codepoint ∈ codepoints raw, (keptOf codepoint).isSome

variable {base raw : Str} {chr : UInt8} {budget codepoint : Nat}

theorem keptOf_eq_some (kept : keptOf codepoint = some chr) : isAlnum chr = true := by
  rw [keptOf, Option.ite_none_right_eq_some] at kept
  obtain ⟨⟨_, alnum⟩, isChr⟩ := kept
  exact Option.some.inj isChr ▸ alnum

theorem ne_underscore_of_isAlnum (alnum : isAlnum chr = true) : chr ≠ 95 := by
  rintro rfl
  cases alnum

/-! ## The loop -/

theorem growing_nil : Growing [] where
  chars _ mem := by cases mem
  noLeading := by simp
  noDoubled := by simp

/-- A character may be added that would not be an underscore at the start or beside another
one. -/
theorem Growing.concat (growing : Growing base) (isChr : isAlnum chr = true ∨ chr = 95)
    (apart : chr = 95 → base ≠ [] ∧ base.getLast? ≠ some 95) : Growing (base ++ [chr]) where
  chars other mem := by
    rcases List.mem_append.mp mem with old | new
    · exact growing.chars other old
    · rw [List.mem_singleton.mp new]
      exact isChr
  noLeading := by
    cases base with
    | nil =>
        intro leading
        cases leading
        exact (apart rfl).1 rfl
    | cons first base => exact growing.noLeading
  noDoubled := by
    rw [List.infix_concat_iff, not_or]
    refine ⟨?_, growing.noDoubled⟩
    rintro ⟨before, ends⟩
    have split : before ++ [95] ++ [95] = base ++ [chr] := by simpa using ends
    obtain ⟨isBase, isChr⟩ := List.append_inj' split rfl
    cases isChr
    apply (apart rfl).2
    rw [← isBase, List.getLast?_concat]

theorem Growing.pushKept (growing : Growing base) (codepoint : Nat) :
    Growing (pushKept base (keptOf codepoint)) := by
  cases kept : keptOf codepoint with
  | some chr =>
      have alnum := keptOf_eq_some kept
      exact growing.concat (.inl alnum) fun same => absurd same (ne_underscore_of_isAlnum alnum)
  | none =>
      rw [Bridge.pushKept]
      split
      next apart => exact growing.concat (.inr rfl) fun _ => apart
      · exact growing

theorem length_pushKept_le (base : Str) (kept : Option UInt8) :
    (pushKept base kept).length ≤ base.length + 1 := by
  cases kept with
  | some chr => rw [pushKept, List.length_append, List.length_singleton]
  | none =>
      rw [pushKept]
      split
      · rw [List.length_append, List.length_singleton]
      · exact Nat.le_succ _

theorem pushKept_ne_nil_iff (kept : Option UInt8) :
    pushKept base kept ≠ [] ↔ base ≠ [] ∨ kept.isSome := by
  cases kept with
  | some chr => simp [pushKept]
  | none =>
      rw [pushKept]
      split
      next some => simp [some.1]
      · simp

/-- The loop keeps the shape of a name and its budget. -/
theorem Growing.sanitiseFrom (growing : Growing base) (fits : base.length ≤ budget) (raw : Str) :
    Growing (sanitiseFrom budget base raw) ∧ (sanitiseFrom budget base raw).length ≤ budget := by
  induction base, raw using sanitiseFrom.induct budget with
  | case1 base =>
      rw [Bridge.sanitiseFrom]
      exact ⟨growing, fits⟩
  | case2 base lead rest full =>
      rw [Bridge.sanitiseFrom, if_pos full]
      exact ⟨growing, fits⟩
  | case3 base lead rest room codepoint more decoded ih =>
      rw [Bridge.sanitiseFrom, if_neg room, decoded]
      apply ih (growing.pushKept codepoint)
      exact Nat.le_trans (length_pushKept_le base _) (Nat.not_le.mp room)

/-- Something is left exactly when there was something, or something is kept. -/
theorem sanitiseFrom_ne_nil_iff (room : 0 < budget) (base raw : Str) :
    sanitiseFrom budget base raw ≠ [] ↔ base ≠ [] ∨ Usable raw := by
  induction base, raw using sanitiseFrom.induct budget with
  | case1 base =>
      rw [sanitiseFrom, Usable, codepoints]
      simp
  | case2 base lead rest full =>
      rw [sanitiseFrom, if_pos full]
      have some : base ≠ [] := List.ne_nil_of_length_pos (Nat.lt_of_lt_of_le room full)
      simp [some]
  | case3 base lead rest notFull codepoint more decoded ih =>
      rw [sanitiseFrom, if_neg notFull, decoded]
      dsimp only
      rw [ih, pushKept_ne_nil_iff, Usable, Usable, codepoints, decoded]
      dsimp only
      rw [List.exists_mem_cons_iff, or_assoc]

/-! ## The end of a name -/

theorem rdropWhile_eq_nil_iff_of_growing (growing : Growing base) :
    base.rdropWhile (· = 95) = [] ↔ base = [] := by
  rw [List.rdropWhile_eq_nil_iff]
  constructor
  · intro all
    cases base with
    | nil => rfl
    | cons first base =>
        have isFirst := of_decide_eq_true (all first List.mem_cons_self)
        exact absurd (congrArg some isFirst) growing.noLeading
  · rintro rfl
    simp

theorem isNickBase_rdropWhile (growing : Growing base) (fits : base.length ≤ budget)
    (nonempty : base ≠ []) : IsNickBase budget (base.rdropWhile (· = 95)) := by
  have starts : base.rdropWhile (· = 95) <+: base := List.rdropWhile_prefix _ _
  have some : base.rdropWhile (· = 95) ≠ [] :=
    mt (rdropWhile_eq_nil_iff_of_growing growing).mp nonempty
  refine ⟨some, Nat.le_trans starts.length_le fits, ?_, ?_, ?_, ?_⟩
  · intro chr mem
    exact growing.chars chr (starts.subset mem)
  · intro leading
    obtain ⟨rest, isBase⟩ := starts
    apply growing.noLeading
    rw [← isBase, List.head?_append, leading, Option.some_or]
  · intro trailing
    rw [List.getLast?_eq_some_getLast some, Option.some.injEq] at trailing
    exact List.rdropWhile_last_not _ _ some (decide_eq_true trailing)
  · intro doubled
    exact growing.noDoubled (doubled.trans starts.isInfix)

theorem sanitiseNick_of_usable (room : 0 < budget) (usable : Usable raw) :
    IsNickBase budget (sanitiseNick raw budget) := by
  obtain ⟨growing, fits⟩ := growing_nil.sanitiseFrom (Nat.zero_le budget) raw
  have nonempty := (sanitiseFrom_ne_nil_iff room [] raw).mpr (.inr usable)
  rw [sanitiseNick, if_neg (mt (rdropWhile_eq_nil_iff_of_growing growing).mp nonempty)]
  exact isNickBase_rdropWhile growing fits nonempty

theorem sanitiseNick_of_not_usable (room : 0 < budget) (useless : ¬Usable raw) :
    sanitiseNick raw budget = ascii "bridge" := by
  have none : sanitiseFrom budget [] raw = [] := by
    by_contra some
    rcases (sanitiseFrom_ne_nil_iff room [] raw).mp some with nonempty | usable
    · exact nonempty rfl
    · exact useless usable
  rw [sanitiseNick, none]
  rfl

/-- The result is the base of a nickname exactly when something of the display name is kept, or
the budget has room for the name that takes its place. -/
theorem isNickBase_sanitiseNick_iff (raw : Str) (room : 0 < budget) :
    IsNickBase budget (sanitiseNick raw budget) ↔ Usable raw ∨ 6 ≤ budget := by
  by_cases usable : Usable raw
  · exact iff_of_true (sanitiseNick_of_usable room usable) (.inl usable)
  · rw [sanitiseNick_of_not_usable room usable, or_iff_right usable]
    constructor
    · intro isBase
      exact isBase.fits
    · intro large
      exact ⟨by decide, large, by decide +kernel, by decide, by decide, by decide⟩

/-- A name of one letter fits the least budget. -/
theorem isNickBase_sanitiseNick_oneLetter : 0 < 1 ∧ IsNickBase 1 (sanitiseNick (ascii "a") 1) := by
  refine ⟨by decide, (isNickBase_sanitiseNick_iff (ascii "a") (by decide)).mpr (.inl ?_)⟩
  refine ⟨97, ?_, by decide⟩
  rw [show ascii "a" = [97] from rfl, codepoints]
  exact List.mem_cons_self

theorem not_usable_marks : ¬Usable (ascii "!!!") := by
  have points : codepoints (ascii "!!!") = [33, 33, 33] := by
    simp [ascii, codepoints, decode, sequenceOf, continueWith]
  rw [Usable, points]
  decide

/-- Nothing of the name is kept, and the name in its place is too long. -/
theorem not_isNickBase_sanitiseNick_marks : ¬IsNickBase 1 (sanitiseNick (ascii "!!!") 1) := by
  rw [sanitiseNick_of_not_usable (by decide) not_usable_marks]
  intro isBase
  exact absurd isBase.fits (by decide)

end Anope.Bridge
