import Anope.Xline.Core

/-!
# Coverage by X-lines

Adding a line keeps the coverage of a removed line when the request, or a line
that stays, matches the same users for as long.  The comparison of the expiries
takes zero for an early time, so a permanent line can give way to a temporary
one.
-/

namespace Anope.Xline

open Anope.Text
open Anope.Text.Match

/-! ## Adding a line -/

section Adding

variable (casemap : Casemap) (request : Request)

/-- The users of a property are matched by a mask that the request puts in
force: by its own when it is allowed, or by the equal mask whose expiry it
extends. -/
def Grants (lines : List XLine) (matched : Str → Prop) : Prop :=
  (∀ x ∈ lines, ¬Refuses casemap request x) ∧ matched request.mask ∨
    ∃ x, Decides casemap request lines x ∧ request.judge casemap x = .equal ∧
      x.expires ≠ 0 ∧ x.expires < request.expires ∧ matched x.mask

theorem grants_iff_of_pass {lines : List XLine} (matched : Str → Prop)
    (pass : ∀ x ∈ lines, ¬Refuses casemap request x) :
    Grants casemap request lines matched ↔ matched request.mask := by
  constructor
  · rintro (⟨_, inForce⟩ | ⟨x, ⟨_, _, rfl, refuses, _⟩, _⟩)
    · exact inForce
    · exact absurd refuses (pass x (by simp))
  · exact fun inForce => .inl ⟨pass, inForce⟩

theorem grants_iff_of_decides {x : XLine} {earlier later : List XLine} (matched : Str → Prop)
    (refuses : Refuses casemap request x) (pass : ∀ y ∈ later, ¬Refuses casemap request y) :
    Grants casemap request (earlier ++ x :: later) matched ↔
      request.judge casemap x = .equal ∧ x.expires ≠ 0 ∧ x.expires < request.expires ∧
        matched x.mask := by
  have notPass : ¬∀ y ∈ earlier ++ x :: later, ¬Refuses casemap request y := fun none =>
    none x (by simp) refuses
  simp only [Grants, notPass, false_and, false_or, decides_iff_of_decides refuses pass]
  constructor
  · rintro ⟨y, rfl, extended⟩
    exact extended
  · exact fun extended => ⟨x, rfl, extended⟩

/-- The deciding line is in force as before, or as far as the request extends it. -/
theorem lasts_settle_iff (x : XLine) (matched : Str → Prop) (t : Nat) :
    (matched (settle casemap request x).mask ∧ Lasts (settle casemap request x).expires t) ↔
      matched x.mask ∧ Lasts x.expires t ∨
        (request.judge casemap x = .equal ∧ x.expires ≠ 0 ∧ x.expires < request.expires ∧
          matched x.mask) ∧ Lasts request.expires t := by
  rw [settle_mask, settle_expires]
  by_cases extended : request.judge casemap x = .equal ∧ x.expires ≠ 0 ∧
      x.expires < request.expires
  · have longer : Lasts x.expires t → Lasts request.expires t := by
      unfold Lasts
      omega
    rw [if_pos extended]
    tauto
  · rw [if_neg extended]
    tauto

/-- What is in force after a line was added: the lines that were kept, and what
the request grants. -/
theorem exists_mem_add_iff (creator id : Str) (now : Nat) (lines : List XLine)
    (matched : Str → Prop) (t : Nat) :
    (∃ x ∈ add casemap request creator id now lines, matched x.mask ∧ Lasts x.expires t) ↔
      (∃ x, Kept casemap request lines x ∧ matched x.mask ∧ Lasts x.expires t) ∨
        Grants casemap request lines matched ∧ Lasts request.expires t := by
  rcases pass_or_decides casemap request lines with pass | ⟨x, earlier, later, rfl, refuses, pass⟩
  · obtain ⟨allowed, left⟩ := canAdd_of_pass pass
    have granted := grants_iff_of_pass casemap request matched pass
    simp only [add, allowed, left, if_true, granted, kept_iff_of_pass pass, List.mem_append,
      List.mem_singleton]
    constructor
    · rintro ⟨x, mem | rfl, inForce⟩
      · exact .inl ⟨x, mem, inForce⟩
      · exact .inr inForce
    · rintro (⟨x, mem, inForce⟩ | inForce)
      · exact ⟨x, .inl mem, inForce⟩
      · exact ⟨_, .inr rfl, inForce⟩
  · obtain ⟨allowed, left⟩ := @canAdd_of_decides casemap request earlier _ _ refuses pass
    have granted := @grants_iff_of_decides casemap request _ earlier _ matched refuses pass
    have settled := lasts_settle_iff casemap request x matched t
    simp only [add, allowed, left, Bool.false_eq_true, if_false, granted,
      kept_iff_of_decides refuses pass, List.mem_append, List.mem_cons]
    constructor
    · rintro ⟨y, mem | rfl | mem, inForce⟩
      · exact .inl ⟨y, .inl mem, inForce⟩
      · rcases settled.mp inForce with unchanged | extended
        · exact .inl ⟨x, .inr (.inl rfl), unchanged⟩
        · exact .inr extended
      · exact .inl ⟨y, .inr (.inr mem), inForce⟩
    · rintro (⟨y, mem | rfl | mem, inForce⟩ | extended)
      · exact ⟨y, .inl mem, inForce⟩
      · exact ⟨_, .inr (.inl rfl), settled.mpr (.inl inForce)⟩
      · exact ⟨y, .inr (.inr mem), inForce⟩
      · exact ⟨_, .inr (.inl rfl), settled.mpr (.inr extended)⟩

end Adding

/-! ## Coverage -/

section Coverage

variable {υ : Type} (check : υ → Str → Bool) (casemap : Casemap) (request : Request)

/-- A line that has not expired at the time matches the user; `check` is the
manager's `Check`. -/
def Covered (lines : List XLine) (t : Nat) (u : υ) : Prop :=
  ∃ x ∈ lines, check u x.mask = true ∧ Lasts x.expires t

/-- Whoever is covered at a time from now on is still covered when the line has
been added. -/
def KeepsCoverage (creator id : Str) (now : Nat) (lines : List XLine) : Prop :=
  ∀ t, now ≤ t → ∀ u, Covered check lines t u →
    Covered check (add casemap request creator id now lines) t u

/-- A bound on the expiries of the lines of a list. -/
theorem exists_expires_lt (lines : List XLine) (least : Nat) :
    ∃ t, least ≤ t ∧ ∀ x ∈ lines, x.expires < t := by
  induction lines with
  | nil => exact ⟨least, le_rfl, fun x mem => absurd mem List.not_mem_nil⟩
  | cons x lines ih =>
      obtain ⟨t, atLeast, below⟩ := ih
      refine ⟨max t (x.expires + 1), by omega, List.forall_mem_cons.mpr ⟨by omega, ?_⟩⟩
      intro y mem
      have := below y mem
      omega

theorem Kept.mem {casemap : Casemap} {request : Request} {lines : List XLine} {x : XLine}
    (kept : Kept casemap request lines x) : x ∈ lines := by
  obtain ⟨earlier, later, rfl, _⟩ := kept
  simp

/-- Coverage is kept exactly when each removed line that has not expired gives
its users up to the request, which must be permanent if the line is, or to a
line that was kept and lasts as long. -/
theorem keepsCoverage_iff (creator id : Str) (now : Nat) (lines : List XLine) :
    KeepsCoverage check casemap request creator id now lines ↔
      ∀ x, Removed casemap request lines x → Lasts x.expires now →
        ∀ u, check u x.mask = true →
          (x.expires = 0 → request.expires = 0) ∧
              Grants casemap request lines (fun mask => check u mask = true) ∨
            ∃ y, Kept casemap request lines y ∧ check u y.mask = true ∧
              Outlasts y.expires x.expires := by
  constructor
  · intro keeps x ⟨earlier, later, equal, redundant, pass⟩ alive u matched
    have mem : x ∈ lines := by simp [equal]
    obtain ⟨bound, atLeast, below⟩ := exists_expires_lt lines (max now (request.expires + 1))
    -- the last moment of the removed line, or a time when only permanent lines are left
    let t := if x.expires = 0 then bound else x.expires
    have future : now ≤ t := by
      unfold Lasts at alive
      grind
    have lasts : Lasts x.expires t := by
      unfold Lasts
      grind
    have covered := keeps t future u ⟨x, mem, matched, lasts⟩
    rcases (exists_mem_add_iff casemap request creator id now lines
      (fun mask => check u mask = true) t).mp covered with
      ⟨y, kept, yMatched, yLasts⟩ | ⟨grants, requestLasts⟩
    · refine .inr ⟨y, kept, yMatched, ?_⟩
      have yBelow := below y kept.mem
      unfold Lasts at yLasts
      unfold Outlasts
      grind
    · refine .inl ⟨fun permanent => ?_, grants⟩
      unfold Lasts at requestLasts
      grind
  · intro condition t future u ⟨x, mem, matched, lasts⟩
    refine (exists_mem_add_iff casemap request creator id now lines
      (fun mask => check u mask = true) t).mpr ?_
    rcases @kept_or_removed casemap request _ _ mem with kept | removed
    · exact .inl ⟨x, kept, matched, lasts⟩
    · have alive : Lasts x.expires now := by
        unfold Lasts at lasts ⊢
        omega
      rcases condition x removed alive u matched with
        ⟨permanent, grants⟩ | ⟨y, kept, yMatched, outlasts⟩
      · obtain ⟨_, _, _, redundant, _⟩ := removed
        have longer := le_of_redundant redundant
        refine .inr ⟨grants, ?_⟩
        unfold Lasts at lasts ⊢
        omega
      · exact .inl ⟨y, kept, yMatched, outlasts.lasts lasts⟩

end Coverage

/-- `SQLineManager::Check` on a line without a regular expression, for a user
known by the nick. -/
def sqlineCheck (casemap : Casemap) (nick mask : Str) : Bool :=
  globMatch casemap nick mask

/-- A permanent line. -/
def permanentLine : XLine where
  mask := ascii "badnick"
  by_ := ascii "oper"
  created := 100
  expires := 0
  reason := ascii "spam"
  id := []

/-- A wider mask for one hour. -/
def widerRequest : Request where
  mask := ascii "bad*"
  expires := 4600
  reason := ascii "spam"

/-- The permanent line is removed for the temporary one, after which nothing is
left. -/
theorem not_keepsCoverage_permanent :
    ¬KeepsCoverage (sqlineCheck .ascii) .ascii widerRequest (ascii "oper") [] 1000
      [permanentLine] := by
  intro keeps
  have covered : Covered (sqlineCheck .ascii) [permanentLine] 5000 (ascii "badnick") :=
    ⟨permanentLine, List.mem_singleton_self _, by decide +kernel, .inl rfl⟩
  obtain ⟨x, mem, _, lasts⟩ := keeps 5000 (by decide) _ covered
  have left : add .ascii widerRequest (ascii "oper") [] 1000 [permanentLine] =
      [{ mask := ascii "bad*", by_ := ascii "oper", created := 1000, expires := 4600,
         reason := ascii "spam", id := [] }] := by
    decide +kernel
  rw [left, List.mem_singleton] at mem
  subst mem
  exact absurd lasts (by unfold Lasts; decide)

/-!
## Refused X-lines

A line that refuses a request lasts as long as the request asks, or is made to,
unless the request is for a permanent line: zero is then compared as an early
time, and a temporary line refuses it.
-/

section Refusal

variable (casemap : Casemap) (request : Request)

/-- A line covers the mask of a request: it has the same mask, or its glob
matches the requested one. -/
def CoversMask (x : XLine) : Prop :=
  casemap.equalsCi x.mask request.mask = true ∨ globMatch casemap request.mask x.mask = true

/-- When `CanAdd` refuses a request, a line covers it for as long as it asks. -/
def RefusalSatisfies (lines : List XLine) : Prop :=
  (canAdd casemap request lines).allowed = false →
    ∃ x ∈ (canAdd casemap request lines).lines,
      CoversMask casemap request x ∧ Outlasts x.expires request.expires

variable {casemap request}

theorem Refuses.coversMask {x : XLine} (refuses : Refuses casemap request x) :
    CoversMask casemap request x := by
  unfold Refuses Request.judge at refuses
  unfold CoversMask
  grind

/-- A line that covers a mask by itself and lasts long enough refuses it. -/
theorem refuses_of_coversMask {x : XLine} (covers : CoversMask casemap request x)
    (lasts : x.expires = 0 ∨ request.expires ≤ x.expires) : Refuses casemap request x := by
  unfold Refuses Request.judge
  unfold CoversMask at covers
  grind

/-- A temporary request is only refused by a line that lasts as long, or is made
to. -/
theorem Refuses.outlasts {x : XLine} (refuses : Refuses casemap request x)
    (temporary : request.expires ≠ 0) :
    Outlasts (settle casemap request x).expires request.expires := by
  rw [settle_expires]
  unfold Refuses Request.judge at refuses
  unfold Outlasts Request.judge
  grind

theorem coversMask_settle {x : XLine} :
    CoversMask casemap request (settle casemap request x) ↔ CoversMask casemap request x := by
  simp only [CoversMask, settle_mask]

/-- Without a request for a later expiry, the line that refuses keeps its own. -/
theorem settle_expires_permanent {x : XLine} (permanent : request.expires = 0) :
    (settle casemap request x).expires = x.expires := by
  rw [settle_expires, if_neg (by omega)]

/-- A refusal means that the request is satisfied unless it is a permanent one
that no permanent line covers. -/
theorem refusalSatisfies_iff (casemap : Casemap) (request : Request) (lines : List XLine) :
    RefusalSatisfies casemap request lines ↔
      (∀ x ∈ lines, ¬Refuses casemap request x) ∨ request.expires ≠ 0 ∨
        ∃ x ∈ lines, x.expires = 0 ∧ CoversMask casemap request x := by
  unfold RefusalSatisfies
  rcases pass_or_decides casemap request lines with pass | ⟨x, earlier, later, rfl, refuses, pass⟩
  · rw [(canAdd_of_pass pass).1]
    exact iff_of_true (by simp) (.inl pass)
  · obtain ⟨refused, left⟩ := @canAdd_of_decides casemap request earlier _ _ refuses pass
    have notPass : ¬∀ y ∈ earlier ++ x :: later, ¬Refuses casemap request y := fun none =>
      none x (by simp) refuses
    rw [left]
    simp only [refused, forall_const, notPass, false_or]
    constructor
    · rintro ⟨y, mem, covers, outlasts⟩
      by_contra unsatisfied
      push Not at unsatisfied
      obtain ⟨permanent, none⟩ := unsatisfied
      have yPermanent : y.expires = 0 := by
        rcases outlasts with zero | ⟨temporary, _⟩
        · exact zero
        · contradiction
      rcases List.mem_append.mp mem with inEarlier | inRest
      · exact none y (by simp [inEarlier]) yPermanent covers
      · rcases List.mem_cons.mp inRest with rfl | inLater
        · rw [settle_expires_permanent permanent] at yPermanent
          exact none x (by simp) yPermanent (coversMask_settle.mp covers)
        · exact none y (by simp [(mem_stay_iff.mp inLater).1]) yPermanent covers
    · rintro (temporary | ⟨y, mem, permanent, covers⟩)
      · exact ⟨settle casemap request x, by simp, coversMask_settle.mpr refuses.coversMask,
          refuses.outlasts temporary⟩
      · rcases List.mem_append.mp mem with inEarlier | inRest
        · exact ⟨y, by simp [inEarlier], covers, .inl permanent⟩
        · rcases List.mem_cons.mp inRest with rfl | inLater
          · refine ⟨settle casemap request y, by simp, coversMask_settle.mpr covers, .inl ?_⟩
            rw [settle_expires, if_neg fun extended => extended.2.1 permanent, permanent]
          · exact absurd (refuses_of_coversMask covers (.inl permanent)) (pass y inLater)

end Refusal

/-- A line for one hour, asked for again as a permanent one. -/
theorem not_refusalSatisfies_permanent :
    ¬RefusalSatisfies .ascii ⟨ascii "badnick", 0, ascii "spam"⟩
      [{ permanentLine with expires := 4600 }] := by
  intro satisfies
  obtain ⟨x, mem, _, outlasts⟩ := satisfies (by decide +kernel)
  have left : (canAdd .ascii ⟨ascii "badnick", 0, ascii "spam"⟩
      [{ permanentLine with expires := 4600 }]).lines =
        [{ permanentLine with expires := 4600 }] := by
    decide +kernel
  rw [left, List.mem_singleton] at mem
  subst mem
  exact absurd outlasts (by unfold Outlasts; decide)

end Anope.Xline
