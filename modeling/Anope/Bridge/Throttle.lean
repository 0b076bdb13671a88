import Anope.Text.Casemap
import Mathlib.Data.Int.Order.Basic
import Mathlib.Tactic.Linarith

/-!
# Flood control of a bridge

`Relay::Take`: a bucket of tokens that starts full, gets a token for every interval, and holds
no more than a burst of them.  Times are integers of any size.
-/

namespace Anope.Bridge

/-- `TokenBucket`, without the count of refused lines. -/
structure TokenBucket where
  tokens : Nat
  refilledAt : Int
  deriving DecidableEq, Repr

namespace TokenBucket

/-- A new bucket. -/
def new : TokenBucket where
  tokens := 0
  refilledAt := 0

/-- The interval in use, at least one second. -/
def secs (interval : Int) : Int :=
  max interval 1

/-- A fresh bucket is filled.  When the clock went backwards, the refill starts anew. -/
def reset (burst : Nat) (now : Int) (bucket : TokenBucket) : TokenBucket :=
  if bucket.refilledAt = 0 ∨ now < bucket.refilledAt then
    { tokens := if bucket.refilledAt = 0 then burst else min bucket.tokens burst
      refilledAt := now }
  else bucket

/-- The tokens of the whole intervals that have passed. -/
def refill (burst : Nat) (interval now : Int) (bucket : TokenBucket) : TokenBucket :=
  let elapsed := now - bucket.refilledAt
  if secs interval ≤ elapsed then
    let count := elapsed / secs interval
    { tokens := (min (burst : Int) (bucket.tokens + count)).toNat
      refilledAt := bucket.refilledAt + count * secs interval }
  else bucket

/-- The bucket that a token is drawn from. -/
def ready (burst : Nat) (interval now : Int) (bucket : TokenBucket) : TokenBucket :=
  (bucket.reset burst now).refill burst interval now

/-- `Relay::Take`. -/
def take (burst : Nat) (interval now : Int) (bucket : TokenBucket) : Bool × TokenBucket :=
  if burst = 0 then (true, bucket)
  else
    let bucket := bucket.ready burst interval now
    if bucket.tokens = 0 then (false, bucket)
    else (true, { bucket with tokens := bucket.tokens - 1 })

/-- The bucket after calls of `Take` at these times. -/
def run (burst : Nat) (interval : Int) (bucket : TokenBucket) (times : List Int) : TokenBucket :=
  times.foldl (fun bucket now => (bucket.take burst interval now).2) bucket

/-- The times of the calls that succeed. -/
def granted (burst : Nat) (interval : Int) : TokenBucket → List Int → List Int
  | _, [] => []
  | bucket, now :: times =>
      let result := bucket.take burst interval now
      if result.1 then now :: granted burst interval result.2 times
      else granted burst interval result.2 times

/-! ## One call -/

section Take

variable {burst : Nat} {interval now : Int} {bucket : TokenBucket}

theorem secs_pos (interval : Int) : 0 < secs interval :=
  lt_of_lt_of_le one_pos (le_max_right _ _)

/-- The bucket holds no more than the burst, and its time is not ahead of the clock. -/
structure Sound (burst : Nat) (now : Int) (bucket : TokenBucket) : Prop where
  bounded : bucket.tokens ≤ burst
  past : bucket.refilledAt ≤ now

theorem sound_new (positive : 0 ≤ now) : Sound burst now new :=
  ⟨Nat.zero_le _, positive⟩

theorem Sound.mono {later : Int} (sound : Sound burst now bucket) (le : now ≤ later) :
    Sound burst later bucket :=
  ⟨sound.bounded, sound.past.trans le⟩

theorem reset_of_used (used : bucket.refilledAt ≠ 0) (past : bucket.refilledAt ≤ now) :
    bucket.reset burst now = bucket :=
  if_neg (not_or.mpr ⟨used, not_lt.mpr past⟩)

theorem reset_of_fresh (fresh : bucket.refilledAt = 0) :
    bucket.reset burst now = ⟨burst, now⟩ := by
  rw [reset, if_pos (Or.inl fresh), if_pos fresh]

theorem Sound.reset (sound : Sound burst now bucket) : Sound burst now (bucket.reset burst now) := by
  by_cases fresh : bucket.refilledAt = 0
  · rw [reset_of_fresh fresh]
    exact ⟨le_refl _, le_refl _⟩
  · rw [reset_of_used fresh sound.past]
    exact sound

variable (interval) in
/-- What has been refilled is what the time has moved on, up to the burst. -/
theorem refill_spec (sound : Sound burst now bucket) :
    ∃ count : Nat, (bucket.refill burst interval now).refilledAt =
        bucket.refilledAt + count * secs interval ∧
      (bucket.refill burst interval now).tokens = min burst (bucket.tokens + count) ∧
      (bucket.refill burst interval now).refilledAt ≤ now ∧
      now < (bucket.refill burst interval now).refilledAt + secs interval := by
  have positive := secs_pos interval
  have past := sound.past
  have bounded := sound.bounded
  rw [refill]
  by_cases passed : secs interval ≤ now - bucket.refilledAt
  · have nonneg : 0 ≤ (now - bucket.refilledAt) / secs interval :=
      Int.ediv_nonneg (by omega) (le_of_lt positive)
    have below := Int.ediv_mul_le (now - bucket.refilledAt) (ne_of_gt positive)
    have above := Int.lt_ediv_add_one_mul_self (now - bucket.refilledAt) positive
    rcases Int.eq_ofNat_of_zero_le nonneg with ⟨count, isCount⟩
    rw [if_pos passed, isCount]
    rw [isCount] at below above
    refine ⟨count, rfl, ?_, ?_, ?_⟩
    · change (min (burst : Int) (bucket.tokens + count)).toNat = _
      omega
    · change bucket.refilledAt + count * secs interval ≤ now
      omega
    · change now < bucket.refilledAt + count * secs interval + secs interval
      rw [add_mul, one_mul] at above
      omega
  · rw [if_neg passed]
    refine ⟨0, ?_, ?_, past, by omega⟩
    · rw [Nat.cast_zero, zero_mul, add_zero]
    · omega

/-- The whole intervals up to now have been refilled. -/
structure Ready (burst : Nat) (interval now : Int) (bucket : TokenBucket) : Prop extends
    Sound burst now bucket where
  current : now < bucket.refilledAt + secs interval

variable (interval) in
theorem Sound.ready (sound : Sound burst now bucket) :
    Ready burst interval now (bucket.ready burst interval now) := by
  rcases refill_spec interval sound.reset with ⟨count, _, tokens, past, current⟩
  exact ⟨⟨tokens ▸ min_le_left _ _, past⟩, current⟩

theorem take_of_empty (some : 0 < burst) (empty : (bucket.ready burst interval now).tokens = 0) :
    bucket.take burst interval now = (false, bucket.ready burst interval now) := by
  rw [take, if_neg (Nat.ne_of_gt some)]
  exact if_pos empty

theorem take_of_tokens (some : 0 < burst)
    (tokens : (bucket.ready burst interval now).tokens ≠ 0) :
    bucket.take burst interval now =
      (true, ⟨(bucket.ready burst interval now).tokens - 1,
        (bucket.ready burst interval now).refilledAt⟩) := by
  rw [take, if_neg (Nat.ne_of_gt some)]
  exact if_neg tokens

variable (interval now bucket) in
/-- A call draws a token from the bucket when there is one. -/
theorem take_spec (some : 0 < burst) :
    (bucket.take burst interval now).2.refilledAt =
        (bucket.ready burst interval now).refilledAt ∧
      ((bucket.take burst interval now).1 = true ↔
        (bucket.ready burst interval now).tokens ≠ 0) ∧
      (bucket.take burst interval now).2.tokens =
        (bucket.ready burst interval now).tokens - 1 := by
  by_cases empty : (bucket.ready burst interval now).tokens = 0
  · rw [take_of_empty some empty]
    refine ⟨rfl, iff_of_false Bool.false_ne_true (not_not_intro empty), ?_⟩
    rw [empty]
  · rw [take_of_tokens some empty]
    exact ⟨rfl, iff_of_true rfl empty, rfl⟩

variable (interval) in
theorem Sound.take (some : 0 < burst) (sound : Sound burst now bucket) :
    Sound burst now (bucket.take burst interval now).2 := by
  have ready := sound.ready interval
  rcases take_spec interval now bucket some with
    ⟨refilledAt, _, tokens⟩
  exact ⟨tokens ▸ (Nat.sub_le _ _).trans ready.bounded, refilledAt ▸ ready.past⟩

end Take

/-! ## Runs -/

section Run

variable {burst : Nat} {interval : Int} {bucket : TokenBucket} {times : List Int}

/-- The bucket of a run is sound at every time from its last call on. -/
theorem sound_run (some : 0 < burst) {now : Int} (sound : ∀ now ∈ times, Sound burst now bucket)
    (soundNow : Sound burst now bucket) (sorted : times.Pairwise (· ≤ ·))
    (past : ∀ time ∈ times, time ≤ now) : Sound burst now (bucket.run burst interval times) := by
  induction times generalizing bucket with
  | nil => exact soundNow
  | cons first times ih =>
      have next := (sound first List.mem_cons_self).take interval some
      rw [List.pairwise_cons] at sorted
      exact ih (fun later mem => next.mono (sorted.1 later mem))
        (next.mono (past first List.mem_cons_self)) sorted.2
        fun time mem => past time (List.mem_cons_of_mem first mem)

/-- The burst, and then one line for an interval. -/
example : granted 2 4 new [100, 100, 101, 104, 104] = [100, 100, 104] := by
  decide

end Run

end TokenBucket

end Anope.Bridge
