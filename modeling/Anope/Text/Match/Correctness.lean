import Anope.Text.Match.Core

/-!
# Correctness of the glob matcher

The main loop decides a search over suffixes: what is left of the mask against
what is left of the string, or against any later position the last star can
resume from.  The search is described once, for an arbitrary way of ending, and
the loop preserves it in every step.  Three instances then say what the matcher
returns: acceptance, running into the terminator of the mask with characters
left, and running into it at the very end of the string.

Comparing acceptance with the glob language isolates the two kinds of input on
which the matcher is wrong: several stars at the end of a mask whose remainder
needs the whole string, and a terminator byte inside the string.
-/

namespace Anope.Text.Match

section Search

variable (casemap : Casemap) (caseSensitive : Bool)

/-- How a search ends: with the string used up, with the mask used up, or on a
star that ends the mask. -/
structure Ending where
  exhausted : Str → Prop
  terminator : Str → Prop
  trailingStar : Prop

/-- A string that ends before the mask can only leave a single star. -/
def Ending.Sound (ending : Ending) : Prop :=
  ∀ wild mask, ending.exhausted (wild :: mask) → wild = star ∧ mask = []

/-- The search for a mask suffix in a string suffix. -/
def Search (ending : Ending) : Str → Str → Prop
  | [], [] => ending.exhausted []
  | [], string :: str => ending.terminator (string :: str)
  | wild :: mask, [] => ending.exhausted (wild :: mask)
  | wild :: mask, string :: str =>
      if wild = star then
        if mask = [] then ending.trailingStar
        else ∃ tail, tail <:+ string :: str ∧ Search ending mask tail
      else accepts casemap caseSensitive wild string = true ∧ Search ending mask str

variable {casemap caseSensitive} {ending : Ending}

theorem search_star_iff {mask : Str} (nonempty : mask ≠ []) (string : UInt8) (str : Str) :
    Search casemap caseSensitive ending (star :: mask) (string :: str) ↔
      ∃ tail, tail <:+ string :: str ∧ Search casemap caseSensitive ending mask tail := by
  simp [Search, nonempty]

theorem search_one_iff {wild : UInt8} (literal : wild ≠ star) (mask : Str)
    (string : UInt8) (str : Str) :
    Search casemap caseSensitive ending (wild :: mask) (string :: str) ↔
      accepts casemap caseSensitive wild string = true ∧
        Search casemap caseSensitive ending mask str := by
  simp [Search, literal]

/-- A star that does not end the mask absorbs any further prefix. -/
theorem search_star_of_suffix (sound : ending.Sound) {mask short long : Str}
    (nonempty : mask ≠ []) (suffix : short <:+ long)
    (found : Search casemap caseSensitive ending (star :: mask) short) :
    Search casemap caseSensitive ending (star :: mask) long := by
  cases short with
  | nil =>
      have onlyStar := sound star mask (by simpa [Search] using found)
      exact absurd onlyStar.2 nonempty
  | cons shortHead shortTail =>
      cases long with
      | nil => simp at suffix
      | cons longHead longTail =>
          rw [search_star_iff nonempty] at found ⊢
          obtain ⟨tail, tailSuffix, tailFound⟩ := found
          exact ⟨tail, tailSuffix.trans suffix, tailFound⟩

/-- Characters of the mask before its next star use up as many characters of
the string. -/
theorem search_literals (sound : ending.Sound) {literals : Str} (rest : Str) {text : Str}
    (noStar : ∀ wild ∈ literals, wild ≠ star)
    (found : Search casemap caseSensitive ending (literals ++ rest) text) :
    ∃ front back, text = front ++ back ∧ front.length = literals.length ∧
      Search casemap caseSensitive ending rest back := by
  induction literals generalizing text with
  | nil => exact ⟨[], text, rfl, rfl, found⟩
  | cons wild literals ih =>
      have literal : wild ≠ star := noStar wild List.mem_cons_self
      cases text with
      | nil =>
          have onlyStar := sound wild (literals ++ rest) (by simpa [Search] using found)
          exact absurd onlyStar.1 literal
      | cons string text =>
          rw [List.cons_append, search_one_iff literal] at found
          obtain ⟨front, back, rfl, lengthEq, tailFound⟩ :=
            ih (fun wild member => noStar wild (List.mem_cons_of_mem _ member)) found.2
          exact ⟨string :: front, back, rfl, by simp [lengthEq], tailFound⟩

/-- A search depends monotonically on what its ending accepts. -/
theorem search_mono {weak strong : Ending}
    (exhausted : ∀ mask, weak.exhausted mask → strong.exhausted mask)
    (terminator : ∀ text, weak.terminator text → strong.terminator text)
    (trailingStar : weak.trailingStar → strong.trailingStar) {mask text : Str}
    (found : Search casemap caseSensitive weak mask text) :
    Search casemap caseSensitive strong mask text := by
  induction mask generalizing text with
  | nil =>
      cases text with
      | nil => exact exhausted _ found
      | cons string text => exact terminator _ found
  | cons wild mask ih =>
      cases text with
      | nil => exact exhausted _ found
      | cons string text =>
          by_cases isStar : wild = star
          · subst isStar
            by_cases last : mask = []
            · simp only [Search, last, if_true] at found ⊢
              exact trailingStar found
            · rw [search_star_iff last] at found ⊢
              obtain ⟨tail, suffix, tailFound⟩ := found
              exact ⟨tail, suffix, ih tailFound⟩
          · rw [search_one_iff isStar] at found ⊢
            exact ⟨found.1, ih found.2⟩

end Search

/-! ## What one iteration preserves -/

section Loop

variable (casemap : Casemap) (caseSensitive : Bool) (str mask : Str)

/-- The search from some position the last star can still resume from. -/
def Later (ending : Ending) (saved : Option (Nat × Nat)) : Prop :=
  ∃ sp mp, saved = some (sp, mp) ∧
    ∃ tail, tail <:+ str.drop sp ∧
      Search casemap caseSensitive ending (mask.drop mp) tail

/-- The search still open when the cursors are `s` and `m`. -/
def Here (ending : Ending) (s m : Nat) (saved : Option (Nat × Nat)) : Prop :=
  Search casemap caseSensitive ending (mask.drop m) (str.drop s) ∨
    Later casemap caseSensitive str mask ending saved

/-- The loop invariant: the part of the mask between the resume position and
the cursor has no star and has been matched against as many characters, the
first of which is the one before the resume position of the string. -/
structure Inv (s m : Nat) (saved : Option (Nat × Nat)) : Prop where
  s_le : s ≤ str.length
  m_le : m ≤ mask.length
  resume : ∀ sp mp, saved = some (sp, mp) →
    mp ≤ m ∧ sp + m = s + 1 + mp ∧ ∀ wild ∈ (mask.drop mp).take (m - mp), wild ≠ star

variable {casemap caseSensitive str mask} {ending : Ending} {s m : Nat}
  {saved : Option (Nat × Nat)}

/-- A resumed search first repeats the characters matched since the star. -/
theorem Later.exists_after_literals (sound : ending.Sound)
    (inv : Inv str mask s m saved)
    (later : Later casemap caseSensitive str mask ending saved) :
    ∃ sp mp front back, saved = some (sp, mp) ∧ front ++ back <:+ str.drop sp ∧
      front.length + sp = s + 1 ∧
      Search casemap caseSensitive ending (mask.drop m) back := by
  obtain ⟨sp, mp, savedEq, tail, suffix, found⟩ := later
  obtain ⟨mpLe, balance, noStar⟩ := inv.resume sp mp savedEq
  have split : mask.drop mp = (mask.drop mp).take (m - mp) ++ mask.drop m := by
    conv_lhs => rw [← List.take_append_drop (m - mp) (mask.drop mp)]
    rw [List.drop_drop, Nat.add_sub_cancel' mpLe]
  rw [split] at found
  obtain ⟨front, back, rfl, lengthEq, rest⟩ := search_literals sound _ noStar found
  refine ⟨sp, mp, front, back, savedEq, suffix, ?_, rest⟩
  have mLe := inv.m_le
  rw [lengthEq, List.length_take, List.length_drop]
  omega

/-- When the string is used up, no later position helps. -/
theorem here_of_exhausted (sound : ending.Sound) (inv : Inv str mask s m saved)
    (atEnd : s = str.length) :
    Here casemap caseSensitive str mask ending s m saved ↔
      Search casemap caseSensitive ending (mask.drop m) [] := by
  have dropEq : str.drop s = [] := by simp [atEnd]
  constructor
  · rintro (found | later)
    · rwa [dropEq] at found
    · obtain ⟨sp, mp, front, back, savedEq, suffix, balance, found⟩ :=
        later.exists_after_literals sound inv
      have short := suffix.length_le
      rw [List.length_append, List.length_drop] at short
      have backEq : back = [] := List.length_eq_zero_iff.mp (by omega)
      rwa [backEq] at found
  · intro found
    exact Or.inl (by rwa [dropEq])

/-- Passing a star replaces the earlier resume positions by later ones. -/
theorem here_star (sound : ending.Sound) (inv : Inv str mask s m saved)
    {string : UInt8} (stringAt : str[s]? = some string)
    (wildAt : mask[m]? = some star) (notLast : m + 1 ≠ mask.length) :
    Here casemap caseSensitive str mask ending s m saved ↔
      Here casemap caseSensitive str mask ending s (m + 1) (some (s + 1, m + 1)) := by
  obtain ⟨sLt, rfl⟩ := List.getElem?_eq_some_iff.mp stringAt
  obtain ⟨mLt, wildEq⟩ := List.getElem?_eq_some_iff.mp wildAt
  have strDrop : str.drop s = str[s] :: str.drop (s + 1) := List.drop_eq_getElem_cons sLt
  have maskDrop : mask.drop m = star :: mask.drop (m + 1) := by
    rw [List.drop_eq_getElem_cons mLt, wildEq]
  have nonempty : mask.drop (m + 1) ≠ [] := by
    simp only [ne_eq, List.drop_eq_nil_iff, Nat.not_le]
    omega
  have after : Here casemap caseSensitive str mask ending s (m + 1) (some (s + 1, m + 1)) ↔
      Search casemap caseSensitive ending (mask.drop m) (str.drop s) := by
    rw [maskDrop, strDrop, search_star_iff nonempty, ← strDrop]
    constructor
    · rintro (found | ⟨sp, mp, savedEq, tail, suffix, found⟩)
      · exact ⟨str.drop s, List.suffix_refl _, found⟩
      · cases savedEq
        refine ⟨tail, suffix.trans ?_, found⟩
        rw [strDrop]
        exact List.suffix_cons _ _
    · rintro ⟨tail, suffix, found⟩
      rw [strDrop, List.suffix_cons_iff, ← strDrop] at suffix
      rcases suffix with rfl | suffix
      · exact Or.inl found
      · exact Or.inr ⟨s + 1, m + 1, rfl, tail, suffix, found⟩
  rw [after]
  constructor
  · rintro (found | later)
    · exact found
    · obtain ⟨sp, mp, front, back, _, suffix, balance, found⟩ :=
        later.exists_after_literals sound inv
      rw [maskDrop] at found ⊢
      refine search_star_of_suffix sound nonempty ?_ found
      obtain ⟨skipped, equal⟩ := suffix
      have whole : back = str.drop (sp + (skipped.length + front.length)) := by
        rw [← List.drop_drop, ← equal, ← List.append_assoc, ← List.length_append,
          List.drop_left]
      rw [whole, show sp + (skipped.length + front.length) = s + (skipped.length + 1) by omega,
        ← List.drop_drop]
      exact List.drop_suffix _ _
  · exact Or.inl

/-- Advancing both cursors over an accepted character. -/
theorem here_advance {string wild : UInt8} (stringAt : str[s]? = some string)
    (wildAt : mask[m]? = some wild) (literal : wild ≠ star)
    (accepted : accepts casemap caseSensitive wild string = true) :
    Here casemap caseSensitive str mask ending s m saved ↔
      Here casemap caseSensitive str mask ending (s + 1) (m + 1) saved := by
  obtain ⟨sLt, rfl⟩ := List.getElem?_eq_some_iff.mp stringAt
  obtain ⟨mLt, rfl⟩ := List.getElem?_eq_some_iff.mp wildAt
  unfold Here
  rw [List.drop_eq_getElem_cons sLt, List.drop_eq_getElem_cons mLt,
    search_one_iff literal]
  simp [accepted]

/-- Resuming after a mismatch moves to the next position the star can reach. -/
theorem here_resume {sp mp : Nat}
    (failed : ¬Search casemap caseSensitive ending (mask.drop m) (str.drop s)) :
    Here casemap caseSensitive str mask ending s m (some (sp, mp)) ↔
      Here casemap caseSensitive str mask ending sp mp (some (sp + 1, mp)) := by
  have step : ∀ tail, tail <:+ str.drop sp ↔
      tail = str.drop sp ∨ tail <:+ str.drop (sp + 1) := by
    intro tail
    by_cases inside : sp < str.length
    · rw [List.drop_eq_getElem_cons inside, List.suffix_cons_iff]
    · simp only [Nat.not_lt] at inside
      have short : str.drop sp = [] := List.drop_eq_nil_iff.mpr inside
      have shorter : str.drop (sp + 1) = [] := List.drop_eq_nil_iff.mpr (by omega)
      simp [short, shorter]
  constructor
  · rintro (found | ⟨_, _, savedEq, tail, suffix, found⟩)
    · exact absurd found failed
    · cases savedEq
      rcases (step tail).mp suffix with rfl | suffix
      · exact Or.inl found
      · exact Or.inr ⟨_, _, rfl, tail, suffix, found⟩
  · rintro (found | ⟨_, _, savedEq, tail, suffix, found⟩)
    · exact Or.inr ⟨_, _, rfl, _, List.suffix_refl _, found⟩
    · cases savedEq
      exact Or.inr ⟨_, _, rfl, tail, (step tail).mpr (Or.inr suffix), found⟩

theorem Inv.star (inv : Inv str mask s m saved) (mLt : m < mask.length) :
    Inv str mask s (m + 1) (some (s + 1, m + 1)) := by
  refine ⟨inv.s_le, mLt, ?_⟩
  intro sp mp savedEq
  cases savedEq
  exact ⟨Nat.le_refl _, rfl, by simp⟩

theorem Inv.advance (inv : Inv str mask s m saved) {wild : UInt8} (sLt : s < str.length)
    (wildAt : mask[m]? = some wild) (literal : wild ≠ Match.star) :
    Inv str mask (s + 1) (m + 1) saved := by
  obtain ⟨mLt, wildEq⟩ := List.getElem?_eq_some_iff.mp wildAt
  refine ⟨sLt, mLt, ?_⟩
  intro sp mp savedEq
  obtain ⟨mpLe, balance, noStar⟩ := inv.resume sp mp savedEq
  refine ⟨by omega, by omega, ?_⟩
  rw [Nat.sub_add_comm mpLe, List.take_add_one, List.getElem?_drop,
    Nat.add_sub_cancel' mpLe, wildAt]
  intro other member
  rcases List.mem_append.mp member with earlier | last
  · exact noStar other earlier
  · simp only [Option.toList_some, List.mem_singleton] at last
    rwa [last]

theorem Inv.resumed {sp mp : Nat} (inv : Inv str mask s m (some (sp, mp)))
    (sLt : s < str.length) : Inv str mask sp mp (some (sp + 1, mp)) := by
  obtain ⟨mpLe, balance, _⟩ := inv.resume sp mp rfl
  have mLe := inv.m_le
  refine ⟨by omega, by omega, ?_⟩
  intro sp' mp' savedEq
  cases savedEq
  exact ⟨Nat.le_refl _, rfl, by simp⟩

end Loop

/-! ## The verdict of the main loop -/

/-- The ending that makes the matcher return true. -/
def accepting : Ending where
  exhausted rest := rest = [] ∨ rest = [star]
  terminator _ := False
  trailingStar := True

/-- The ending in which the terminator of the mask is taken for a character of
the string, with `allowed` characters left behind it. -/
def terminated (casemap : Casemap) (caseSensitive : Bool) (allowed : Str → Prop) :
    Ending where
  exhausted _ := False
  terminator text := ∃ string rest, text = string :: rest ∧
    accepts casemap caseSensitive 0 string = true ∧ allowed rest
  trailingStar := False

/-- The endings the matcher can come to. -/
inductive Ending.Proper (casemap : Casemap) (caseSensitive : Bool) : Ending → Prop where
  | accepting : Proper casemap caseSensitive accepting
  | terminated (allowed : Str → Prop) :
      Proper casemap caseSensitive (terminated casemap caseSensitive allowed)

theorem Ending.Proper.sound {casemap : Casemap} {caseSensitive : Bool} {ending : Ending}
    (proper : ending.Proper casemap caseSensitive) : ending.Sound := by
  cases proper with
  | accepting =>
      rintro wild mask (equal | equal)
      · contradiction
      · simpa using equal
  | terminated allowed => rintro wild mask ⟨⟩

theorem search_terminated_of_any {casemap : Casemap} {caseSensitive : Bool}
    {allowed : Str → Prop} {mask text : Str}
    (found : Search casemap caseSensitive (terminated casemap caseSensitive allowed)
      mask text) :
    Search casemap caseSensitive (terminated casemap caseSensitive fun _ => True)
      mask text := by
  refine search_mono ?_ ?_ ?_ found
  · exact fun _ impossible => impossible
  · rintro _ ⟨string, rest, rfl, accepted, _⟩
    exact ⟨string, rest, rfl, accepted, trivial⟩
  · exact fun impossible => impossible

section Verdict

variable (casemap : Casemap) (caseSensitive : Bool) (str mask : Str)

/-- The outcome a loop state leads to, read off the open search. -/
structure Verdict (s m : Nat) (saved : Option (Nat × Nat)) (outcome : Outcome) : Prop where
  overrun : Here casemap caseSensitive str mask
    (terminated casemap caseSensitive (· ≠ [])) s m saved → outcome = .overrun
  atEnd : ¬Here casemap caseSensitive str mask
      (terminated casemap caseSensitive (· ≠ [])) s m saved →
    Here casemap caseSensitive str mask
      (terminated casemap caseSensitive fun _ => True) s m saved → outcome = .ret false
  decided : ¬Here casemap caseSensitive str mask
      (terminated casemap caseSensitive fun _ => True) s m saved →
    ∃ result, outcome = .ret result ∧
      (result = true ↔ Here casemap caseSensitive str mask accepting s m saved)

variable {casemap caseSensitive str mask} {s m s' m' : Nat}
  {saved saved' : Option (Nat × Nat)} {outcome : Outcome}

/-- A step that preserves every open search preserves the verdict. -/
theorem Verdict.of_here_iff
    (same : ∀ ending : Ending, ending.Proper casemap caseSensitive →
      (Here casemap caseSensitive str mask ending s m saved ↔
        Here casemap caseSensitive str mask ending s' m' saved'))
    (verdict : Verdict casemap caseSensitive str mask s' m' saved' outcome) :
    Verdict casemap caseSensitive str mask s m saved outcome where
  overrun := by
    rw [same _ (.terminated _)]
    exact verdict.overrun
  atEnd := by
    rw [same _ (.terminated _), same _ (.terminated _)]
    exact verdict.atEnd
  decided := by
    rw [same _ (.terminated _), same _ .accepting]
    exact verdict.decided

/-- A return value is the verdict when the terminator is never taken for a
character and acceptance agrees. -/
theorem Verdict.of_result {result : Bool}
    (apart : ¬Here casemap caseSensitive str mask
      (terminated casemap caseSensitive fun _ => True) s m saved)
    (agrees : result = true ↔ Here casemap caseSensitive str mask accepting s m saved) :
    Verdict casemap caseSensitive str mask s m saved (.ret result) where
  overrun found := by
    refine absurd ?_ apart
    rcases found with found | ⟨sp, mp, savedEq, tail, suffix, found⟩
    · exact Or.inl (search_terminated_of_any found)
    · exact Or.inr ⟨sp, mp, savedEq, tail, suffix, search_terminated_of_any found⟩
  atEnd _ found := absurd found apart
  decided _ := ⟨result, rfl, agrees⟩

/-- The last rule accepts exactly an empty rest or a single star. -/
theorem finish_eq (mLe : m ≤ mask.length) :
    finish mask m = .ret (mask.drop m = [] ∨ mask.drop m = [star]) := by
  unfold finish
  rcases Nat.lt_or_eq_of_le mLe with inside | atEnd
  · have dropEq : mask.drop m = mask[m] :: mask.drop (m + 1) := List.drop_eq_getElem_cons inside
    by_cases isStar : mask[m] = star
    · have lengthIff : m + 1 = mask.length ↔ mask.drop (m + 1) = [] := by
        rw [List.drop_eq_nil_iff]
        omega
      simp [inside, isStar, dropEq, lengthIff]
    · have noSkip : ¬(m < mask.length ∧ mask[m]? = some star) := by
        simp [inside, isStar]
      have notStar : mask.drop m ≠ [star] := by
        rw [dropEq]
        exact fun equal => isStar (List.cons.inj equal).1
      rw [if_neg noSkip]
      simp [notStar, inside, Nat.ne_of_lt inside]
  · simp [atEnd]

theorem not_here_terminated_at_end {allowed : Str → Prop} (inv : Inv str mask s m saved)
    (atEnd : s = str.length) :
    ¬Here casemap caseSensitive str mask
      (terminated casemap caseSensitive allowed) s m saved := by
  rw [here_of_exhausted (Ending.Proper.terminated _).sound inv atEnd]
  cases mask.drop m <;> simp [Search, terminated]

theorem verdict_finish (inv : Inv str mask s m saved) (atEnd : s = str.length) :
    Verdict casemap caseSensitive str mask s m saved (finish mask m) := by
  rw [finish_eq inv.m_le]
  refine Verdict.of_result (not_here_terminated_at_end inv atEnd) ?_
  have sound : accepting.Sound :=
    (.accepting : accepting.Proper casemap caseSensitive).sound
  rw [here_of_exhausted sound inv atEnd]
  cases mask.drop m <;> simp [Search, accepting]

/-- A star at the end of the mask accepts whatever is left. -/
theorem verdict_last_star (inv : Inv str mask s m saved) (maskDrop : mask.drop m = [star])
    (nonempty : str.drop s ≠ []) :
    Verdict casemap caseSensitive str mask s m saved (.ret true) := by
  have apart : ∀ text, ¬Search casemap caseSensitive
      (terminated casemap caseSensitive fun _ => True) [star] text := by
    rintro (_ | ⟨string, text⟩) <;> simp [Search, terminated]
  refine Verdict.of_result ?_ ?_
  · rintro (found | later)
    · rw [maskDrop] at found
      exact apart _ found
    · obtain ⟨_, _, _, back, _, _, _, found⟩ :=
        later.exists_after_literals (Ending.Proper.terminated _).sound inv
      rw [maskDrop] at found
      exact apart back found
  · refine iff_of_true rfl (Or.inl ?_)
    rw [maskDrop]
    cases strDrop : str.drop s with
    | nil => exact absurd strDrop nonempty
    | cons string text => simp [Search, accepting]

/-- Taking the terminator for a character ends the run: either the string ends
there too, or the next read of the mask has no result. -/
theorem verdict_terminator (inv : Inv str mask s mask.length saved) {string : UInt8}
    (stringAt : str[s]? = some string)
    (accepted : accepts casemap caseSensitive 0 string = true) {fuel : Nat} :
    Verdict casemap caseSensitive str mask s mask.length saved
      (scan casemap caseSensitive str mask (fuel + 1) (s + 1) (mask.length + 1) saved) := by
  obtain ⟨sLt, rfl⟩ := List.getElem?_eq_some_iff.mp stringAt
  have strDrop : str.drop s = str[s] :: str.drop (s + 1) := List.drop_eq_getElem_cons sLt
  have search : ∀ allowed : Str → Prop, allowed (str.drop (s + 1)) →
      Here casemap caseSensitive str mask
        (terminated casemap caseSensitive allowed) s mask.length saved := by
    intro allowed holds
    refine Or.inl ?_
    rw [List.drop_length, strDrop]
    exact ⟨str[s], str.drop (s + 1), rfl, accepted, holds⟩
  by_cases last : s + 1 = str.length
  · have outcome : scan casemap caseSensitive str mask (fuel + 1) (s + 1)
        (mask.length + 1) saved = .ret false := by
      simp [scan, finish, last]
    rw [outcome]
    refine ⟨?_, fun _ _ => rfl, fun apart => absurd (search _ trivial) apart⟩
    rintro (found | later)
    · rw [List.drop_length, strDrop] at found
      obtain ⟨_, rest, equal, _, nonempty⟩ := found
      cases equal
      exact absurd (List.drop_eq_nil_iff.mpr (Nat.le_of_eq last.symm)) nonempty
    · obtain ⟨sp, mp, front, back, _, suffix, balance, found⟩ :=
        later.exists_after_literals (Ending.Proper.terminated _).sound inv
      have short := suffix.length_le
      rw [List.length_append, List.length_drop] at short
      have backEq : back = [] := List.length_eq_zero_iff.mp (by omega)
      rw [backEq, List.drop_length] at found
      exact found.elim
  · have outcome : scan casemap caseSensitive str mask (fuel + 1) (s + 1)
        (mask.length + 1) saved = .overrun := by
      have more : s + 1 < str.length := by omega
      simp [scan, charAt, more]
    rw [outcome]
    have nonempty : str.drop (s + 1) ≠ [] := by
      rw [ne_eq, List.drop_eq_nil_iff]
      omega
    exact ⟨fun _ => rfl, fun apart => absurd (search _ nonempty) apart,
      fun apart => absurd (search _ trivial) apart⟩

/-- The number of iterations still possible: each mismatch moves the resume
position on, and between two of them the mask cursor only advances. -/
def remaining (str mask : Str) (m : Nat) (saved : Option (Nat × Nat)) : Nat :=
  (mask.length + 2) * (str.length + 1 - (saved.map Prod.fst).getD 0) +
    (mask.length + 1 - m)

theorem remaining_star (inv : Inv str mask s m saved) (mLt : m < mask.length) :
    remaining str mask (m + 1) (some (s + 1, m + 1)) < remaining str mask m saved := by
  have resumeLe : (saved.map Prod.fst).getD 0 ≤ s + 1 := by
    rcases saved with _ | ⟨sp, mp⟩
    · simp
    · obtain ⟨mpLe, balance, _⟩ := inv.resume sp mp rfl
      simp only [Option.map_some, Option.getD_some]
      omega
  have factor := Nat.mul_le_mul_left (mask.length + 2)
    (Nat.sub_le_sub_left resumeLe (str.length + 1))
  simp only [remaining, Option.map_some, Option.getD_some]
  omega

theorem remaining_advance (mLt : m < mask.length) :
    remaining str mask (m + 1) saved < remaining str mask m saved := by
  unfold remaining
  omega

theorem remaining_resume {sp mp : Nat} (inside : sp ≤ str.length) :
    remaining str mask mp (some (sp + 1, mp)) < remaining str mask m (some (sp, mp)) := by
  have factor : (mask.length + 2) * (str.length + 1 - sp) =
      (mask.length + 2) * (str.length + 1 - (sp + 1)) + (mask.length + 2) := by
    rw [← Nat.mul_succ]
    congr 1
    omega
  simp only [remaining, Option.map_some, Option.getD_some, factor]
  omega

/-- After a mismatch the loop resumes behind the last star, or fails when there
is none. -/
theorem verdict_mismatch {fuel : Nat} (sLt : s < str.length)
    (failed : ∀ ending : Ending, ending.Proper casemap caseSensitive →
      ¬Search casemap caseSensitive ending (mask.drop m) (str.drop s))
    (next : ∀ {s m : Nat} {saved : Option (Nat × Nat)}, Inv str mask s m saved →
      remaining str mask m saved < fuel →
      Verdict casemap caseSensitive str mask s m saved
        (scan casemap caseSensitive str mask fuel s m saved)) :
    Inv str mask s m saved → remaining str mask m saved < fuel + 1 →
      Verdict casemap caseSensitive str mask s m saved
        (match saved with
          | none => .ret false
          | some (sp, mp) =>
              scan casemap caseSensitive str mask fuel sp mp (some (sp + 1, mp))) := by
  intro inv enough
  cases saved with
  | none =>
      have closed : ∀ ending : Ending, ending.Proper casemap caseSensitive →
          ¬Here casemap caseSensitive str mask ending s m none := by
        rintro ending proper (found | ⟨_, _, savedEq, _⟩)
        · exact failed ending proper found
        · contradiction
      exact Verdict.of_result (closed _ (.terminated _))
        (iff_of_false (by simp) (closed _ .accepting))
  | some resume =>
      have resumed := inv.resumed sLt
      exact Verdict.of_here_iff (fun ending proper => here_resume (failed ending proper))
        (next resumed (Nat.lt_of_lt_of_le (remaining_resume resumed.s_le)
          (Nat.le_of_lt_succ enough)))

/-- The main loop, from any state that satisfies the invariant, returns the
verdict of the search that is open there. -/
theorem verdict_scan {fuel : Nat} (inv : Inv str mask s m saved)
    (enough : remaining str mask m saved < fuel) :
    Verdict casemap caseSensitive str mask s m saved
      (scan casemap caseSensitive str mask fuel s m saved) := by
  induction fuel generalizing s m saved with
  | zero => contradiction
  | succ fuel ih =>
      have mLe := inv.m_le
      unfold scan
      cases stringAt : str[s]? with
      | none =>
          have atEnd : s = str.length :=
            Nat.le_antisymm inv.s_le (List.getElem?_eq_none_iff.mp stringAt)
          exact verdict_finish inv atEnd
      | some string =>
          obtain ⟨sLt, stringEq⟩ := List.getElem?_eq_some_iff.mp stringAt
          have strDrop : str.drop s = string :: str.drop (s + 1) := by
            rw [List.drop_eq_getElem_cons sLt, stringEq]
          rcases Nat.lt_or_eq_of_le mLe with mLt | rfl
          · have wildAt : mask[m]? = some mask[m] := List.getElem?_eq_getElem mLt
            have read : charAt mask m = some mask[m] := by
              rw [charAt, if_neg (Nat.ne_of_lt mLt), wildAt]
            have maskDrop : mask.drop m = mask[m] :: mask.drop (m + 1) :=
              List.drop_eq_getElem_cons mLt
            simp only [read]
            by_cases isStar : mask[m] = star
            · rw [if_pos isStar]
              rw [isStar] at wildAt maskDrop
              by_cases last : m + 1 = mask.length
              · rw [if_pos last]
                have rest : mask.drop (m + 1) = [] := List.drop_eq_nil_iff.mpr last.ge
                exact verdict_last_star inv (by rw [maskDrop, rest]) (by rw [strDrop]; simp)
              · rw [if_neg last]
                exact Verdict.of_here_iff
                  (fun _ proper => here_star proper.sound inv stringAt wildAt last)
                  (ih (inv.star mLt)
                    (Nat.lt_of_lt_of_le (remaining_star inv mLt) (Nat.le_of_lt_succ enough)))
            · rw [if_neg isStar]
              by_cases accepted : accepts casemap caseSensitive mask[m] string = true
              · rw [if_pos accepted]
                exact Verdict.of_here_iff
                  (fun _ _ => here_advance stringAt wildAt isStar accepted)
                  (ih (inv.advance sLt wildAt isStar)
                    (Nat.lt_of_lt_of_le (remaining_advance mLt) (Nat.le_of_lt_succ enough)))
              · rw [if_neg accepted]
                refine verdict_mismatch sLt ?_ ih inv enough
                intro ending _
                rw [maskDrop, strDrop, search_one_iff isStar]
                exact fun found => accepted found.1
          · have read : charAt mask mask.length = some 0 := by simp [charAt]
            simp only [read]
            rw [if_neg (by decide)]
            by_cases accepted : accepts casemap caseSensitive 0 string = true
            · rw [if_pos accepted]
              obtain ⟨more, rfl⟩ : ∃ more, fuel = more + 1 :=
                Nat.exists_eq_succ_of_ne_zero (by unfold remaining at enough; omega)
              exact verdict_terminator inv stringAt accepted
            · rw [if_neg accepted]
              refine verdict_mismatch sLt ?_ ih inv enough
              intro ending proper
              rw [List.drop_length, strDrop]
              cases proper with
              | accepting => exact fun found => found
              | terminated allowed =>
                  rintro ⟨_, _, equal, taken, _⟩
                  cases equal
                  exact accepted taken

end Verdict

end Anope.Text.Match
