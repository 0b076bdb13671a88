import Anope.Dns.Core
import Anope.Library.Retention
import Anope.Library.Table

/-!
# The DNS cache

Answers are cached under their first question.  `CheckCache` hands out what it
finds without a look at its age, and `Tick`, which runs every five minutes,
looks at the first answer only.  So an answer stays within its lifetime exactly
in the histories that ask for it in time.
-/

namespace Anope.Dns

open Library Library.Retention

/-! ## The cache -/

/-- A `Query` that `HandlePacket` hands to `AddCache`: it has checked that there
are a question and an answer. -/
structure Query where
  questions : List Question
  answers : List ResourceRecord
  authorities : List ResourceRecord
  additional : List ResourceRecord
  asked : questions ≠ []
  answered : answers ≠ []
  deriving DecidableEq

namespace Query

/-- `questions[0]`. -/
def firstQuestion (query : Query) : Question :=
  query.questions.head query.asked

/-- `answers[0]`. -/
def firstAnswer (query : Query) : ResourceRecord :=
  query.answers.head query.answered

/-- The records that a requester is given. -/
def records (query : Query) : List ResourceRecord :=
  query.answers ++ query.authorities ++ query.additional

/-- The test of `Tick`. -/
def outdated (query : Query) (curTime : Int) : Bool :=
  query.firstAnswer.created + query.firstAnswer.ttl.toNat < curTime

end Query

/-- A cached query.  The code does not keep the time of caching: it is here to
state what the age of a record is. -/
structure Cached where
  query : Query
  cachedAt : Int
  deriving DecidableEq

/-- The part of a `MyManager` that its cache uses, and `Anope::CurTime`. -/
structure MyManager where
  curTime : Int
  cache : AList fun _ : Question => Cached

namespace MyManager

/-- A new `MyManager`. -/
def new (curTime : Int) : MyManager where
  curTime := curTime
  cache := ∅

/-- `MyManager::AddCache`. -/
def addCache (manager : MyManager) (r : Query) : MyManager :=
  { manager with cache := manager.cache.insert r.firstQuestion ⟨r, manager.curTime⟩ }

/-- `MyManager::CheckCache`: the cached query that the request is completed
with. -/
def checkCache (manager : MyManager) (request : Question) : Option Cached :=
  -- Questions are equal only with the same name; it is their hash that folds case.
  manager.cache.lookup request

/-- `MyManager::Tick`. -/
def tick (manager : MyManager) : MyManager :=
  { manager with
    cache := Table.filter (fun _ cached => !cached.query.outdated manager.curTime) manager.cache }

end MyManager

/-- What happens to a cache.  The system clock can be set back. -/
inductive CacheEvent where
  | addCache (r : Query)
  | checkCache (request : Question)
  | tick
  | timeStep (seconds : Int)

namespace CacheEvent

/-- The seconds that pass. -/
def seconds : CacheEvent → Int
  | timeStep seconds => seconds
  | _ => 0

/-- The time after an event. -/
def advance (time : Int) (event : CacheEvent) : Int :=
  time + event.seconds

end CacheEvent

namespace MyManager

/-- One event. -/
def step (manager : MyManager) : CacheEvent → MyManager
  | .addCache r => manager.addCache r
  | .checkCache _ => manager
  | .tick => manager.tick
  | .timeStep seconds => { manager with curTime := manager.curTime + seconds }

/-- The manager after a history. -/
def after (start : Int) (history : List CacheEvent) : MyManager :=
  history.foldl step (new start)

end MyManager

/-! ## What a history leaves in the cache -/

namespace CacheEvent

/-- An event after which the cached answer to a question is still there: it
neither caches another answer to the question nor purges this one. -/
def keeps (question : Question) (query : Query) (time : Int) : CacheEvent → Prop
  | addCache r => r.firstQuestion ≠ question
  | tick => query.outdated time = false
  | _ => True

end CacheEvent

/-- The seconds that pass in a history. -/
def elapsed (history : List CacheEvent) : Int :=
  (history.map CacheEvent.seconds).sum

/-- A cached answer outlasts a history that starts at a time: no event of it
replaces or purges the answer. -/
def Outlasts (question : Question) (query : Query) (time : Int) (history : List CacheEvent) :
    Prop :=
  Kept CacheEvent.advance (CacheEvent.keeps question query) time history

theorem advance_addCache (time : Int) (r : Query) :
    (CacheEvent.addCache r).advance time = time :=
  Int.add_zero time

theorem foldl_advance (time : Int) (history : List CacheEvent) :
    history.foldl CacheEvent.advance time = time + elapsed history := by
  induction history generalizing time with
  | nil => exact (Int.add_zero time).symm
  | cons event history ih =>
      rw [List.foldl_cons, ih, CacheEvent.advance, elapsed, elapsed, List.map_cons, List.sum_cons,
        Int.add_assoc]

namespace MyManager

theorem curTime_step (manager : MyManager) (event : CacheEvent) :
    (manager.step event).curTime = event.advance manager.curTime := by
  cases event with
  | timeStep seconds => rfl
  | addCache r => exact (Int.add_zero _).symm
  | checkCache request => exact (Int.add_zero _).symm
  | tick => exact (Int.add_zero _).symm

/-- One event caches an answer to a question or keeps the one that is there. -/
theorem checkCache_step (manager : MyManager) (event : CacheEvent) (question : Question)
    (cached : Cached) :
    (manager.step event).checkCache question = some cached ↔
      (event = .addCache cached.query ∧ cached.query.firstQuestion = question ∧
          cached.cachedAt = manager.curTime) ∨
        manager.checkCache question = some cached ∧
          event.keeps question cached.query manager.curTime := by
  cases event with
  | addCache r =>
      simp only [step, checkCache, addCache, CacheEvent.keeps, CacheEvent.addCache.injEq]
      by_cases same : question = r.firstQuestion
      · subst same
        rw [AList.lookup_insert]
        constructor
        · rintro ⟨⟩
          exact .inl ⟨rfl, rfl, rfl⟩
        · rintro (⟨rfl, _, now⟩ | ⟨_, different⟩)
          · rw [← now]
          · exact absurd rfl different
      · rw [AList.lookup_insert_ne same]
        constructor
        · intro found
          exact .inr ⟨found, Ne.symm same⟩
        · rintro (⟨rfl, first, _⟩ | ⟨found, _⟩)
          · exact absurd first.symm same
          · exact found
  | checkCache request => simp [step, CacheEvent.keeps]
  | timeStep seconds => simp [step, checkCache, CacheEvent.keeps]
  | tick =>
      simp only [step, checkCache, tick, Table.lookup_filter_eq_some, CacheEvent.keeps,
        Bool.not_eq_true', reduceCtorEq, false_and, false_or]

/-- The place in the cache for the answer to a question. -/
def place (question : Question) : Place MyManager Int CacheEvent Cached where
  step := step
  time := curTime
  advance := CacheEvent.advance
  content manager := manager.checkCache question
  writes time event cached := event = .addCache cached.query ∧
    cached.query.firstQuestion = question ∧ cached.cachedAt = time
  keeps cached := CacheEvent.keeps question cached.query
  time_step := curTime_step
  content_step manager event cached := checkCache_step manager event question cached

theorem curTime_after (start : Int) (history : List CacheEvent) :
    (after start history).curTime = start + elapsed history := by
  rw [← foldl_advance]
  exact (List.foldl_hom curTime fun manager event => (curTime_step manager event).symm).symm

/-- The age of what an event in a history has cached. -/
theorem age_after (start : Int) (before mid : List CacheEvent) (r : Query) :
    (after start (before ++ .addCache r :: mid)).curTime - (start + elapsed before) =
      elapsed mid := by
  have total : elapsed (before ++ .addCache r :: mid) = elapsed before + elapsed mid := by
    simp [elapsed, CacheEvent.seconds]
  rw [curTime_after, total]
  omega

/-- `CheckCache` finds the answer to a question that was cached last, when no
purge has removed it since. -/
theorem checkCache_after (start : Int) (history : List CacheEvent) (question : Question)
    (cached : Cached) :
    (after start history).checkCache question = some cached ↔
      ∃ before mid, history = before ++ .addCache cached.query :: mid ∧
        cached.query.firstQuestion = question ∧ cached.cachedAt = start + elapsed before ∧
          Outlasts question cached.query (start + elapsed before) mid := by
  have now : (new start).curTime = start := rfl
  have empty : (new start).checkCache question ≠ some cached := nofun
  have left := (place question).content_foldl (new start) history cached
  simp only [place, Place.WrittenAndKept, foldl_advance, now, empty, false_and, or_false] at left
  refine left.trans ?_
  constructor
  · rintro ⟨before, event, mid, split, ⟨rfl, first, time⟩, kept⟩
    rw [advance_addCache] at kept
    exact ⟨before, mid, split, first, time, kept⟩
  · rintro ⟨before, mid, split, first, time, outlasts⟩
    refine ⟨before, _, mid, split, ⟨rfl, first, time⟩, ?_⟩
    rw [advance_addCache]
    exact outlasts

end MyManager

/-! ## Lifetimes -/

/-- No request is completed with a record that has reached the end of its
lifetime since it was cached. -/
def NeverStale (start : Int) (history : List CacheEvent) : Prop :=
  ∀ before request behind, history = before ++ .checkCache request :: behind →
    ∀ cached, (MyManager.after start before).checkCache request = some cached →
      ∀ record ∈ cached.query.records,
        (MyManager.after start before).curTime - cached.cachedAt < record.ttl.toNat

/-- Every question is asked in time: within the lifetimes of the records of an
answer that was cached before and that nothing has replaced or purged. -/
def AsksInTime (start : Int) (history : List CacheEvent) : Prop :=
  ∀ before r mid behind,
    history = before ++ .addCache r :: (mid ++ .checkCache r.firstQuestion :: behind) →
      Outlasts r.firstQuestion r (start + elapsed before) mid →
        ∀ record ∈ r.records, elapsed mid < record.ttl.toNat

/-- Cached records stay within their lifetimes exactly in the histories that ask
in time: neither `CheckCache` nor `Tick` enforces it. -/
theorem neverStale_iff (start : Int) (history : List CacheEvent) :
    NeverStale start history ↔ AsksInTime start history := by
  constructor
  · intro fresh before r mid behind split outlasts record mem
    have found : (MyManager.after start (before ++ .addCache r :: mid)).checkCache
        r.firstQuestion = some ⟨r, start + elapsed before⟩ :=
      (MyManager.checkCache_after ..).mpr ⟨before, mid, rfl, rfl, rfl, outlasts⟩
    have young := fresh (before ++ .addCache r :: mid) r.firstQuestion behind
      (by rw [split, List.append_assoc, List.cons_append]) _ found record mem
    rwa [MyManager.age_after] at young
  · rintro inTime before request behind rfl cached found record mem
    rcases (MyManager.checkCache_after ..).mp found with ⟨early, mid, rfl, rfl, time, outlasts⟩
    rw [time, MyManager.age_after]
    exact inTime early cached.query mid behind
      (by rw [List.append_assoc, List.cons_append]) outlasts record mem

/-- An address that may be kept for a minute. -/
def minuteAddress : Query where
  questions := [⟨ascii "example", .a, 1⟩]
  answers := [⟨⟨ascii "example", .a, 1⟩, 60, ascii "192.0.2.1", none, 0⟩]
  authorities := []
  additional := []
  asked := List.cons_ne_nil _ _
  answered := List.cons_ne_nil _ _

/-- The address is handed out after a hundred seconds: no purge has run. -/
theorem not_neverStale_minuteAddress :
    ¬∀ start history, NeverStale start history := by
  intro fresh
  have stale := fresh 0
    [.addCache minuteAddress, .timeStep 100, .checkCache minuteAddress.firstQuestion]
    [.addCache minuteAddress, .timeStep 100] minuteAddress.firstQuestion [] rfl
    ⟨minuteAddress, 0⟩ (by decide) minuteAddress.firstAnswer (by decide)
  revert stale
  decide

end Anope.Dns
