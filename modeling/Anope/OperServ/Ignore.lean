import Anope.Mode.Entry

/-!
# Services ignores

The ignores of `os_ignore`, and the search for one that covers a user or a mask.  The search ends
at the first entry that matches.  If that one has timed out it is deleted, and none is found.
-/

namespace Anope.Ignore

open Anope.Mode Anope.Net Anope.Text Anope.Text.Match

/-- `IgnoreData`. -/
structure IgnoreData where
  mask : Str
  creator : Str
  reason : Str
  /-- When the entry times out; zero if it does not. -/
  time : Int
  deriving DecidableEq, Repr

/-- What `Find` asks of the rest of the program: the users by nick, whether a regular expression
compiles and matches a text, the time, and `NoExpire`. -/
structure Services where
  casemap : Casemap
  lib : Inet
  extbans : Entry.Extbans
  findUser : Str → Option User
  regex : Str → Str → Bool
  curTime : Int
  noExpire : Bool

section Code

variable (services : Services)

/-- `Anope::Match(str, mask, false, true)`. -/
def matchRegex (str mask : Str) : Bool :=
  (2 ≤ mask.length && mask.head? = some 47 && mask.getLast? = some 47 &&
      services.regex ((mask.drop 1).take (mask.length - 2)) str) ||
    globMatch services.casemap str mask

/-- A valid mask for what is no user: there is none if a `!` is behind the `@`. -/
def validMask (mask : Str) : Option Str :=
  match mask.findIdx? (· = 64) with
  | some host =>
      match mask.findIdx? (· = 33) with
      | some user => if user > host then none else some mask
      | none => some (ascii "*!" ++ mask)
  | none => some (mask ++ ascii "!*@*")

/-- The test of the loops, for a user or for a mask. -/
def matchesIgnore (mask : Str) (ign : IgnoreData) : Bool :=
  match services.findUser mask with
  | some u =>
      (Entry.build services.casemap services.lib ign.mask [] true).matchesUser services.casemap
        services.lib services.extbans u true
  | none => (validMask mask).any fun tmp => matchRegex services tmp ign.mask

/-- An entry has timed out. -/
def expired (id : IgnoreData) : Bool :=
  id.time ≠ 0 && !services.noExpire && id.time ≤ services.curTime

/-- `OSIgnoreService::Find`: the entry that is found, and the ignores that are left. -/
def find (ignores : List IgnoreData) (mask : Str) : Option IgnoreData × List IgnoreData :=
  match ignores.find? (matchesIgnore services mask) with
  | none => (none, ignores)
  | some id =>
      if expired services id then (none, ignores.eraseP (matchesIgnore services mask))
      else (some id, ignores)

/-- An entry that has not timed out is found if one matches. -/
def FindsLive (ignores : List IgnoreData) (mask : Str) : Prop :=
  (∃ ign ∈ ignores, matchesIgnore services mask ign ∧ !expired services ign) →
    ∃ ign ∈ ignores, matchesIgnore services mask ign ∧ !expired services ign ∧
      (find services ignores mask).1 = some ign

/-- Only entries that have timed out are removed. -/
def RemovesExpired (ignores : List IgnoreData) (mask : Str) : Prop :=
  (find services ignores mask).2.Sublist ignores ∧
    (find services ignores mask).2.filter (!expired services ·) =
      ignores.filter (!expired services ·)

/-- The first entry that matches has not timed out, or all that match have. -/
def FirstDecides (ignores : List IgnoreData) (mask : Str) : Prop :=
  ∀ first, ignores.find? (matchesIgnore services mask) = some first →
    expired services first = true →
      ∀ ign ∈ ignores, matchesIgnore services mask ign → expired services ign = true

end Code

/-! ## What is found and removed -/

variable {services : Services} {ignores : List IgnoreData} {mask : Str}

/-- Erasing an element that a filter leaves out does not change what is left. -/
theorem filter_eraseP {α : Type} {test keep : α → Bool} {list : List α} {first : α}
    (found : list.find? test = some first) (out : keep first = false) :
    (list.eraseP test).filter keep = list.filter keep := by
  obtain ⟨isFirst, before, after, rfl, none⟩ := List.find?_eq_some_iff_append.mp found
  rw [List.eraseP_append_right _ fun other mem => by simpa using none other mem,
    List.eraseP_cons_of_pos isFirst, List.filter_append, List.filter_append, List.filter_cons,
    if_neg (Bool.eq_false_iff.mp out)]

theorem removesExpired (services : Services) (ignores : List IgnoreData) (mask : Str) :
    RemovesExpired services ignores mask := by
  rw [RemovesExpired, find]
  split
  · exact ⟨List.Sublist.refl _, rfl⟩
  next id found =>
    split
    next isExpired =>
      exact ⟨List.eraseP_sublist, filter_eraseP found (by rw [isExpired]; rfl)⟩
    · exact ⟨List.Sublist.refl _, rfl⟩

theorem findsLive_iff (services : Services) (ignores : List IgnoreData) (mask : Str) :
    FindsLive services ignores mask ↔ FirstDecides services ignores mask := by
  rw [FindsLive, find]
  constructor
  · intro finds first found isExpired ign mem isMatch
    by_contra live
    obtain ⟨other, _, _, _, isFound⟩ := finds ⟨ign, mem, isMatch, by simpa using live⟩
    rw [found] at isFound
    simp only [isExpired, if_true] at isFound
    cases isFound
  · rintro first ⟨ign, mem, isMatch, live⟩
    cases found : ignores.find? (matchesIgnore services mask) with
    | none => exact absurd isMatch (List.find?_eq_none.mp found ign mem)
    | some id =>
        have isLive : expired services id = false := by
          rw [Bool.eq_false_iff]
          intro isExpired
          rw [first id found isExpired ign mem isMatch] at live
          cases live
        refine ⟨id, List.mem_of_find?_eq_some found, List.find?_some found, ?_, ?_⟩
        · rw [isLive]
          rfl
        · simp only [isLive]
          rfl

/-- The search finds an entry that has not timed out, and removes only others, exactly when the
first entry that matches has not timed out or all that match have. -/
theorem find_exact_iff (services : Services) (ignores : List IgnoreData) (mask : Str) :
    FindsLive services ignores mask ∧ RemovesExpired services ignores mask ↔
      FirstDecides services ignores mask := by
  rw [and_iff_left (removesExpired services ignores mask), findsLive_iff]

/-! ## An old entry before a new one -/

/-- Nobody is online, and there are no regular expressions. -/
def noUsers : Services where
  casemap := .ascii
  lib := ⟨fun _ => none, fun _ => none, fun _ => none, fun _ => none⟩
  extbans := ⟨fun _ => false, fun _ => none⟩
  findUser _ := none
  regex _ _ := false
  curTime := 100
  noExpire := false

/-- An entry that has timed out, and one that does not. -/
def oldAndNew : List IgnoreData :=
  [⟨ascii "*!*@*", ascii "oper", [], 50⟩, ⟨ascii "nick!*@*", ascii "oper", [], 0⟩]

/-- The first one is deleted, and the second one is not looked at. -/
theorem not_find_exact_oldAndNew :
    ¬(FindsLive noUsers oldAndNew (ascii "nick") ∧
      RemovesExpired noUsers oldAndNew (ascii "nick")) := by
  rintro ⟨finds, _⟩
  have notFound : (find noUsers oldAndNew (ascii "nick")).1 = none := by decide +kernel
  have live : ∃ ign ∈ oldAndNew, matchesIgnore noUsers (ascii "nick") ign ∧
      !expired noUsers ign := by decide +kernel
  obtain ⟨ign, _, _, _, found⟩ := finds live
  rw [notFound] at found
  cases found

end Anope.Ignore
