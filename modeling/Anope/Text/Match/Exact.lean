import Anope.Text.Match.Correctness
import Mathlib.Data.List.DropRight

/-!
# When the matcher decides the glob language

The search of the main loop is compared with the glob language by recursion on
the mask without its trailing stars.  The matcher decides the language exactly
when neither of two things happens: the mask ends in several stars and the part
before them can only be matched by the whole string, or the string holds a byte
that compares equal to the terminator right behind a match of the mask.
-/

namespace Anope.Text.Match

open Library.Glob

section Exact

variable {casemap : Casemap} {caseSensitive : Bool}

/-! ## The first loop -/

/-- The first loop skips a common number of characters and changes no search;
it fails only when no search can succeed. -/
theorem literalLoop_spec (str mask : Str) (i : Nat) :
    match literalLoop casemap caseSensitive str mask i with
    | none => ∀ ending : Ending, ending.Sound →
        ¬Search casemap caseSensitive ending mask str
    | some j => ∃ skipped, j = i + skipped ∧ skipped ≤ str.length ∧
        skipped ≤ mask.length ∧ ∀ ending : Ending,
          Search casemap caseSensitive ending mask str ↔
            Search casemap caseSensitive ending (mask.drop skipped) (str.drop skipped) := by
  induction str generalizing mask i with
  | nil =>
      simp only [literalLoop]
      exact ⟨0, rfl, by simp, by simp, fun _ => Iff.rfl⟩
  | cons string str ih =>
      cases mask with
      | nil => exact ⟨0, rfl, by simp, by simp, fun _ => Iff.rfl⟩
      | cons wild mask =>
          unfold literalLoop
          by_cases isStar : wild = star
          · rw [if_pos isStar]
            exact ⟨0, rfl, by simp, by simp, fun _ => Iff.rfl⟩
          · rw [if_neg isStar]
            by_cases accepted : accepts casemap caseSensitive wild string = true
            · rw [if_neg (by simp [accepted])]
              have rest := ih mask (i + 1)
              cases result : literalLoop casemap caseSensitive str mask (i + 1) with
              | none =>
                  simp only [result] at rest ⊢
                  intro ending sound found
                  exact rest ending sound ((search_one_iff isStar ..).mp found).2
              | some j =>
                  simp only [result] at rest ⊢
                  obtain ⟨skipped, rfl, strLe, maskLe, same⟩ := rest
                  refine ⟨skipped + 1, by omega, by simpa, by simpa, ?_⟩
                  intro ending
                  rw [search_one_iff isStar, same ending]
                  simp [accepted]
            · rw [if_pos (by simp [accepted])]
              intro ending _ found
              exact accepted ((search_one_iff isStar ..).mp found).1

/-- The three ways a call can end, in terms of the search over the whole mask
and the whole string. -/
theorem matchMask_cases (str mask : Str) :
    (Search casemap caseSensitive (terminated casemap caseSensitive (· ≠ [])) mask str →
      matchMask casemap caseSensitive str mask = .overrun) ∧
    (¬Search casemap caseSensitive (terminated casemap caseSensitive (· ≠ [])) mask str →
      Search casemap caseSensitive (terminated casemap caseSensitive fun _ => True) mask str →
      matchMask casemap caseSensitive str mask = .ret false) ∧
    (¬Search casemap caseSensitive (terminated casemap caseSensitive fun _ => True) mask str →
      ∃ result, matchMask casemap caseSensitive str mask = .ret result ∧
        (result = true ↔ Search casemap caseSensitive accepting mask str)) := by
  have first := @literalLoop_spec casemap caseSensitive str mask 0
  unfold matchMask
  cases result : literalLoop casemap caseSensitive str mask 0 with
  | none =>
      simp only [result] at first ⊢
      refine ⟨fun found => absurd found (first _ (Ending.Proper.terminated _).sound),
        fun _ _ => trivial, fun _ => ⟨false, rfl, ?_⟩⟩
      have sound : accepting.Sound :=
        (.accepting : accepting.Proper casemap caseSensitive).sound
      exact iff_of_false (by simp) (first accepting sound)
  | some i =>
      simp only [result] at first ⊢
      obtain ⟨skipped, rfl, strLe, maskLe, same⟩ := first
      rw [Nat.zero_add] at *
      have inv : Inv str mask skipped skipped none := ⟨strLe, maskLe, by simp⟩
      have enough : remaining str mask skipped none <
          (mask.length + 2) * (str.length + 2) := by
        simp only [remaining, Option.map_none, Option.getD_none, Nat.sub_zero]
        have product : (mask.length + 2) * (str.length + 2) =
            (mask.length + 2) * (str.length + 1) + (mask.length + 2) := Nat.mul_succ _ _
        omega
      have verdict : Verdict casemap caseSensitive str mask skipped skipped none _ :=
        verdict_scan inv enough
      have here : ∀ ending : Ending,
          Here casemap caseSensitive str mask ending skipped skipped none ↔
            Search casemap caseSensitive ending mask str := by
        intro ending
        rw [same ending]
        simp [Here, Later]
      refine ⟨fun found => verdict.overrun ((here _).mpr found),
        fun apart found => verdict.atEnd (mt (here _).mp apart) ((here _).mpr found), ?_⟩
      intro apart
      obtain ⟨answer, outcome, agrees⟩ := verdict.decided (mt (here _).mp apart)
      exact ⟨answer, outcome, agrees.trans (here _)⟩

/-! ## Comparison with the glob language -/

theorem language_nil_iff (str : Str) : Language casemap caseSensitive [] str ↔ str = [] :=
  Iff.rfl

theorem language_star_iff (mask str : Str) :
    Language casemap caseSensitive (star :: mask) str ↔
      ∃ tail, tail <:+ str ∧ Language casemap caseSensitive mask tail := by
  simp [Language, pattern, matches_star_iff]

theorem not_language_one_nil {wild : UInt8} (literal : wild ≠ star) (mask : Str) :
    ¬Language casemap caseSensitive (wild :: mask) [] := by
  simp [Language, pattern, literal]

theorem language_one_iff {wild : UInt8} (literal : wild ≠ star) (mask : Str)
    (string : UInt8) (str : Str) :
    Language casemap caseSensitive (wild :: mask) (string :: str) ↔
      accepts casemap caseSensitive wild string = true ∧
        Language casemap caseSensitive mask str := by
  simp [Language, pattern, literal]

/-- Trailing stars give up an arbitrary end of the string. -/
theorem language_append_stars_iff (core : Str) (n : Nat) (str : Str) :
    Language casemap caseSensitive (core ++ List.replicate (n + 1) star) str ↔
      ∃ front back, str = front ++ back ∧ Language casemap caseSensitive core front := by
  have tokens : pattern casemap caseSensitive (core ++ List.replicate (n + 1) star) =
      pattern casemap caseSensitive core ++ List.replicate (n + 1) .star := by
    simp [pattern]
  rw [Language, tokens, matches_append_stars_iff]
  rfl

/-- A mask that does not end in a star matches nothing empty once it has a
star in front. -/
theorem not_language_star_nil {mask : Str} (nonempty : mask ≠ [])
    (last : mask.getLast? ≠ some star) :
    ¬Language casemap caseSensitive mask [] := by
  induction mask with
  | nil => contradiction
  | cons wild mask ih =>
      by_cases isStar : wild = star
      · subst isStar
        cases mask with
        | nil => simp at last
        | cons next mask =>
            rw [language_star_iff]
            rintro ⟨tail, suffix, matched⟩
            rw [List.suffix_nil] at suffix
            subst suffix
            exact ih (by simp) (by simpa using last) matched
      · exact not_language_one_nil isStar mask

/-- A part of the mask that does not end in a star is searched exactly as the
glob language reads it, whatever follows it in the mask. -/
theorem search_append_iff {ending : Ending} (sound : ending.Sound) {core : Str}
    (last : core.getLast? ≠ some star) (rest str : Str) :
    Search casemap caseSensitive ending (core ++ rest) str ↔
      ∃ front back, str = front ++ back ∧ Language casemap caseSensitive core front ∧
        Search casemap caseSensitive ending rest back := by
  induction core generalizing str with
  | nil => simp [language_nil_iff]
  | cons wild core ih =>
      by_cases isStar : wild = star
      · subst isStar
        have nonempty : core ≠ [] := by
          rintro rfl
          simp at last
        have coreLast : core.getLast? ≠ some star := by
          rwa [List.getLast?_cons_of_ne_nil nonempty] at last
        have appendNonempty : core ++ rest ≠ [] := by simp [nonempty]
        cases str with
        | nil =>
            constructor
            · intro found
              have onlyStar := sound star (core ++ rest) (by simpa [Search] using found)
              exact absurd onlyStar.2 appendNonempty
            · rintro ⟨front, back, equal, matched, _⟩
              rw [List.nil_eq_append_iff] at equal
              rw [equal.1] at matched
              exact absurd matched (not_language_star_nil (by simp) last)
        | cons string str =>
            rw [List.cons_append, search_star_iff appendNonempty]
            simp only [ih coreLast, language_star_iff]
            constructor
            · rintro ⟨_, ⟨skipped, equal⟩, front, back, rfl, matched, found⟩
              exact ⟨skipped ++ front, back, by simp [← equal], ⟨front, ⟨skipped, rfl⟩, matched⟩,
                found⟩
            · rintro ⟨_, back, equal, ⟨front, ⟨skipped, rfl⟩, matched⟩, found⟩
              exact ⟨front ++ back, ⟨skipped, by simp [equal]⟩, front, back, rfl, matched, found⟩
      · have coreLast : core.getLast? ≠ some star := by
          cases core with
          | nil => simp
          | cons next core => simpa using last
        cases str with
        | nil =>
            constructor
            · intro found
              have onlyStar := sound wild (core ++ rest) (by simpa [Search] using found)
              exact absurd onlyStar.1 isStar
            · rintro ⟨front, back, equal, matched, _⟩
              rw [List.nil_eq_append_iff] at equal
              rw [equal.1] at matched
              exact absurd matched (not_language_one_nil isStar core)
        | cons string str =>
            rw [List.cons_append, search_one_iff isStar, ih coreLast]
            constructor
            · rintro ⟨accepted, front, back, rfl, matched, found⟩
              exact ⟨string :: front, back, rfl,
                (language_one_iff isStar ..).mpr ⟨accepted, matched⟩, found⟩
            · rintro ⟨front, back, equal, matched, found⟩
              cases front with
              | nil => exact absurd matched (not_language_one_nil isStar core)
              | cons head front =>
                  cases equal
                  rw [language_one_iff isStar] at matched
                  exact ⟨matched.1, front, back, rfl, matched.2, found⟩

/-- What may be left of the string in front of `n` trailing stars. -/
def LeftOver : Nat → Str → Prop
  | 0, back => back = []
  | 1, _ => True
  | _ + 2, back => back ≠ []

theorem search_stars_iff (n : Nat) (back : Str) :
    Search casemap caseSensitive accepting (List.replicate n star) back ↔ LeftOver n back := by
  match n with
  | 0 => cases back <;> simp [Search, accepting, LeftOver]
  | 1 => cases back <;> simp [Search, accepting, LeftOver]
  | n + 2 =>
      cases back with
      | nil => simp [Search, accepting, LeftOver, List.replicate_succ]
      | cons string back =>
          rw [List.replicate_succ, search_star_iff (by simp)]
          refine iff_of_true ⟨string :: back, List.suffix_refl _, ?_⟩ (by simp [LeftOver])
          rw [search_stars_iff (n + 1)]
          cases n <;> simp [LeftOver]

theorem search_terminated_stars_iff (allowed : Str → Prop) (n : Nat) (back : Str) :
    Search casemap caseSensitive (terminated casemap caseSensitive allowed)
        (List.replicate n star) back ↔
      n = 0 ∧ ∃ string rest, back = string :: rest ∧
        accepts casemap caseSensitive 0 string = true ∧ allowed rest := by
  match n with
  | 0 => cases back <;> simp [Search, terminated]
  | 1 => cases back <;> simp [Search, terminated]
  | n + 2 =>
      cases back with
      | nil => simp [Search, terminated, List.replicate_succ]
      | cons string back =>
          rw [List.replicate_succ, search_star_iff (by simp)]
          simp [search_terminated_stars_iff allowed (n + 1)]

/-- Every mask is a part that does not end in a star, followed by stars. -/
theorem exists_core (mask : Str) :
    ∃ core n, mask = core ++ List.replicate n star ∧ core.getLast? ≠ some star := by
  induction mask using List.reverseRecOn with
  | nil => exact ⟨[], 0, rfl, by simp⟩
  | append_singleton mask wild ih =>
      by_cases isStar : wild = star
      · obtain ⟨core, n, rfl, last⟩ := ih
        refine ⟨core, n + 1, ?_, last⟩
        rw [isStar, List.append_assoc, ← List.replicate_succ']
      · exact ⟨mask ++ [wild], 0, by simp, by simpa using isStar⟩

theorem getLast?_append_stars (core : Str) (n : Nat) :
    (core ++ List.replicate (n + 1) star).getLast? = some star := by
  rw [List.replicate_succ', ← List.append_assoc, List.getLast?_concat]

/-- The part in front of the trailing stars and their number are unique. -/
theorem core_unique {core core' : Str} {n n' : Nat}
    (last : core.getLast? ≠ some star) (last' : core'.getLast? ≠ some star)
    (equal : core ++ List.replicate n star = core' ++ List.replicate n' star) :
    core = core' ∧ n = n' := by
  induction n generalizing n' with
  | zero =>
      cases n' with
      | zero => simpa using equal
      | succ n' =>
          simp only [List.replicate_zero, List.append_nil] at equal
          rw [equal] at last
          exact absurd (getLast?_append_stars core' n') last
  | succ n ih =>
      cases n' with
      | zero =>
          simp only [List.replicate_zero, List.append_nil] at equal
          rw [← equal] at last'
          exact absurd (getLast?_append_stars core n) last'
      | succ n' =>
          rw [List.replicate_succ', List.replicate_succ', ← List.append_assoc,
            ← List.append_assoc] at equal
          obtain ⟨rfl, rfl⟩ := ih (List.append_inj' equal rfl).1
          exact ⟨rfl, rfl⟩

/-! ## The exact condition -/

variable (casemap caseSensitive)

/-- Several stars end the mask and the part before them matches the whole
string but no proper prefix of it: the last rule skips only one star. -/
def TrailingStarsMissed (str mask : Str) : Prop :=
  ∃ core n, mask = core ++ List.replicate (n + 2) star ∧ core.getLast? ≠ some star ∧
    Language casemap caseSensitive core str ∧
    ∀ front back, str = front ++ back → back ≠ [] →
      ¬Language casemap caseSensitive core front

/-- The string holds a terminator right behind a match of the mask, and either
goes on after it or is matched as a whole. -/
def TerminatorTaken (str mask : Str) : Prop :=
  mask.getLast? ≠ some star ∧
    ∃ front string back, str = front ++ string :: back ∧
      accepts casemap caseSensitive 0 string = true ∧
      Language casemap caseSensitive mask front ∧
      (back ≠ [] ∨ Language casemap caseSensitive mask str)

/-- The matcher returns, and returns membership in the glob language. -/
def DecidesLanguage (str mask : Str) : Prop :=
  ∃ result, matchMask casemap caseSensitive str mask = .ret result ∧
    (result = true ↔ Language casemap caseSensitive mask str)

variable {casemap caseSensitive}

theorem search_accepting_iff {core : Str} (last : core.getLast? ≠ some star) (n : Nat)
    (str : Str) :
    Search casemap caseSensitive accepting (core ++ List.replicate n star) str ↔
      ∃ front back, str = front ++ back ∧ Language casemap caseSensitive core front ∧
        LeftOver n back := by
  have sound : accepting.Sound :=
    (.accepting : accepting.Proper casemap caseSensitive).sound
  simp only [search_append_iff sound last, search_stars_iff]

theorem search_terminated_iff (allowed : Str → Prop) {core : Str}
    (last : core.getLast? ≠ some star) (n : Nat) (str : Str) :
    Search casemap caseSensitive (terminated casemap caseSensitive allowed)
        (core ++ List.replicate n star) str ↔
      n = 0 ∧ ∃ front string back, str = front ++ string :: back ∧
        accepts casemap caseSensitive 0 string = true ∧
        Language casemap caseSensitive core front ∧ allowed back := by
  rw [search_append_iff (Ending.Proper.terminated allowed).sound last]
  simp only [search_terminated_stars_iff]
  constructor
  · rintro ⟨front, _, rfl, matched, noStars, string, back, rfl, taken, holds⟩
    exact ⟨noStars, front, string, back, rfl, taken, matched, holds⟩
  · rintro ⟨noStars, front, string, back, rfl, taken, matched, holds⟩
    exact ⟨front, string :: back, rfl, matched, noStars, string, back, rfl, taken, holds⟩

/-- With a mask that does not end in a star only a terminator inside the string
can go wrong. -/
theorem decidesLanguage_iff_of_no_stars {mask : Str} (str : Str)
    (last : mask.getLast? ≠ some star) :
    DecidesLanguage casemap caseSensitive str mask ↔
      ¬TerminatorTaken casemap caseSensitive str mask := by
  obtain ⟨overrun, atEnd, decided⟩ :=
    @matchMask_cases casemap caseSensitive str mask
  have hit : ∀ allowed : Str → Prop,
      Search casemap caseSensitive (terminated casemap caseSensitive allowed) mask str ↔
        ∃ front string back, str = front ++ string :: back ∧
          accepts casemap caseSensitive 0 string = true ∧
          Language casemap caseSensitive mask front ∧ allowed back := by
    intro allowed
    simpa using search_terminated_iff allowed last 0 str
  have accept : Search casemap caseSensitive accepting mask str ↔
      Language casemap caseSensitive mask str := by
    simpa [LeftOver] using search_accepting_iff last 0 str
  simp only [hit] at overrun atEnd decided
  by_cases more : ∃ front string back, str = front ++ string :: back ∧
      accepts casemap caseSensitive 0 string = true ∧
      Language casemap caseSensitive mask front ∧ back ≠ []
  · refine iff_of_false ?_ (not_not_intro ?_)
    · rintro ⟨result, outcome, _⟩
      rw [overrun more] at outcome
      contradiction
    · obtain ⟨front, string, back, equal, taken, matched, nonempty⟩ := more
      exact ⟨last, front, string, back, equal, taken, matched, Or.inl nonempty⟩
  · by_cases atLast : ∃ front string back, str = front ++ string :: back ∧
        accepts casemap caseSensitive 0 string = true ∧
        Language casemap caseSensitive mask front ∧ True
    · have outcome := atEnd more atLast
      have taken_iff : TerminatorTaken casemap caseSensitive str mask ↔
          Language casemap caseSensitive mask str := by
        constructor
        · rintro ⟨_, front, string, back, equal, taken, matched, nonempty | whole⟩
          · exact absurd ⟨front, string, back, equal, taken, matched, nonempty⟩ more
          · exact whole
        · intro whole
          obtain ⟨front, string, back, equal, taken, matched, _⟩ := atLast
          exact ⟨last, front, string, back, equal, taken, matched, Or.inr whole⟩
      rw [taken_iff]
      constructor
      · rintro ⟨result, returned, agrees⟩ whole
        rw [outcome, ← Outcome.ret.injEq] at *
        cases returned
        simp [whole] at agrees
      · intro outside
        exact ⟨false, outcome, iff_of_false (by simp) outside⟩
    · obtain ⟨result, outcome, agrees⟩ := decided atLast
      refine iff_of_true ⟨result, outcome, agrees.trans accept⟩ ?_
      rintro ⟨_, front, string, back, equal, taken, matched, _⟩
      exact atLast ⟨front, string, back, equal, taken, matched, trivial⟩

/-- With trailing stars the matcher always returns, and what it accepts leaves
an end of the string that fits their number. -/
theorem decidesLanguage_iff_of_stars {core : Str} (n : Nat) (str : Str)
    (last : core.getLast? ≠ some star) :
    DecidesLanguage casemap caseSensitive str (core ++ List.replicate (n + 1) star) ↔
      ((∃ front back, str = front ++ back ∧ Language casemap caseSensitive core front) →
        ∃ front back, str = front ++ back ∧ Language casemap caseSensitive core front ∧
          LeftOver (n + 1) back) := by
  obtain ⟨_, _, decided⟩ := @matchMask_cases casemap caseSensitive str
    (core ++ List.replicate (n + 1) star)
  obtain ⟨result, outcome, agrees⟩ := decided (by simp [search_terminated_iff _ last])
  rw [search_accepting_iff last] at agrees
  rw [DecidesLanguage, language_append_stars_iff]
  constructor
  · rintro ⟨result', outcome', agrees'⟩ matched
    rw [outcome] at outcome'
    cases outcome'
    exact agrees.mp (agrees'.mpr matched)
  · intro leftOver
    refine ⟨result, outcome, agrees.trans ⟨?_, leftOver⟩⟩
    rintro ⟨front, back, equal, matched, _⟩
    exact ⟨front, back, equal, matched⟩

/-- The matcher decides the glob language of the mask exactly when the part
before several trailing stars does not need the whole string and no terminator
inside the string follows a match of the mask. -/
theorem matchMask_decidesLanguage_iff (casemap : Casemap) (caseSensitive : Bool)
    (str mask : Str) :
    DecidesLanguage casemap caseSensitive str mask ↔
      ¬TrailingStarsMissed casemap caseSensitive str mask ∧
        ¬TerminatorTaken casemap caseSensitive str mask := by
  obtain ⟨core, n, rfl, last⟩ := exists_core mask
  have missed_iff : TrailingStarsMissed casemap caseSensitive str
        (core ++ List.replicate n star) ↔
      2 ≤ n ∧ Language casemap caseSensitive core str ∧
        ∀ front back, str = front ++ back → back ≠ [] →
          ¬Language casemap caseSensitive core front := by
    constructor
    · rintro ⟨core', n', equal, last', matched, noPrefix⟩
      obtain ⟨rfl, rfl⟩ := core_unique last last' equal
      exact ⟨by omega, matched, noPrefix⟩
    · rintro ⟨atLeast, matched, noPrefix⟩
      obtain ⟨more, rfl⟩ := Nat.exists_eq_add_of_le' atLeast
      exact ⟨core, more, rfl, last, matched, noPrefix⟩
  cases n with
  | zero =>
      rw [missed_iff, List.replicate_zero, List.append_nil,
        decidesLanguage_iff_of_no_stars str last]
      simp
  | succ n =>
      have notTaken : ¬TerminatorTaken casemap caseSensitive str
          (core ++ List.replicate (n + 1) star) :=
        fun taken => taken.1 (getLast?_append_stars core n)
      rw [missed_iff, decidesLanguage_iff_of_stars n str last]
      simp only [notTaken, not_false_eq_true, and_true]
      cases n with
      | zero => simp [LeftOver]
      | succ n =>
          simp only [LeftOver]
          constructor
          · rintro shorter ⟨_, matched, noPrefix⟩
            obtain ⟨front, back, equal, prefixMatched, nonempty⟩ :=
              shorter ⟨str, [], by simp, matched⟩
            exact noPrefix front back equal nonempty prefixMatched
          · rintro noMiss ⟨front, back, equal, matched⟩
            by_contra noShorter
            have noPrefix : ∀ front back, str = front ++ back → back ≠ [] →
                ¬Language casemap caseSensitive core front :=
              fun front back equal nonempty matched =>
                noShorter ⟨front, back, equal, matched, nonempty⟩
            cases back with
            | nil =>
                rw [List.append_nil] at equal
                subst equal
                exact noMiss ⟨by omega, matched, noPrefix⟩
            | cons string back => exact noPrefix front _ equal (by simp) matched

/-- `a` belongs to the language of `a**`, but the matcher skips only one of the
two trailing stars and refuses it. -/
theorem not_decidesLanguage_trailing_stars :
    ¬DecidesLanguage Casemap.ascii false (ascii "a") (ascii "a**") := by
  rintro ⟨result, outcome, agrees⟩
  have member : Language Casemap.ascii false (ascii "a**") (ascii "a") := by
    decide +kernel
  have refused : matchMask Casemap.ascii false (ascii "a") (ascii "a**") = .ret false := by
    decide +kernel
  rw [refused] at outcome
  cases outcome
  exact Bool.false_ne_true (agrees.mpr member)

end Exact

end Anope.Text.Match
