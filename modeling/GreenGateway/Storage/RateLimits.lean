import Mathlib.Algebra.Order.Floor.Ring
import Mathlib.Data.Rat.Floor
import GreenGateway.Foundation.TokenBucket

/-! The shared rate limiter: one statement that creates or advances a bucket's row, and the
token bucket its decisions come from. Instants and intervals are whole microseconds. -/

namespace GreenGateway.Storage

open Foundation.TokenBucket

/-- The limit a decision is made against. -/
structure SharedLimit where
  emissionInterval : Int
  burst : Nat
  positive : 0 < emissionInterval

def SharedLimit.tolerance (limit : SharedLimit) : Int := (limit.burst - 1) * limit.emissionInterval

open SharedLimit
/-- A row of `rate_limit_buckets`: the theoretical arrival time, the last decision and its
time. -/
structure BucketRow where
  tat : Int
  allowed : Bool
  updatedAt : Int

/-- The row of a new key. -/
def SharedLimit.insert (limit : SharedLimit) (now : Int) : BucketRow where
  tat := now + if 0 ≤ limit.tolerance then limit.emissionInterval else 0
  allowed := decide (0 ≤ limit.tolerance)
  updatedAt := now

/-- The row a decision leaves on a known key. -/
def SharedLimit.update (limit : SharedLimit) (now : Int) (b : BucketRow) : BucketRow :=
  let early := max (max b.tat now) b.updatedAt - max now b.updatedAt
  { tat := if early ≤ limit.tolerance then max (max b.tat now) b.updatedAt + limit.emissionInterval
      else b.tat
    allowed := decide (early ≤ limit.tolerance)
    updatedAt := max now b.updatedAt }

def SharedLimit.upsert (limit : SharedLimit) (now : Int) : Option BucketRow → BucketRow
  | none => limit.insert now
  | some b => limit.update now b

/-- The answers to statements at the given times, on one bucket row. -/
def SharedLimit.decisions (limit : SharedLimit) (row : Option BucketRow) : List Int → List Bool
  | [] => []
  | now :: later =>
    (limit.upsert now row).allowed :: limit.decisions (some (limit.upsert now row)) later

/-- The latest time seen so far, statement by statement. -/
def effectiveAfter (latest : Int) : List Int → List ℚ
  | [] => []
  | now :: later => ↑(max now latest) :: effectiveAfter (max now latest) later

def effective : List Int → List ℚ
  | [] => []
  | now :: later => ↑now :: effectiveAfter now later

/-- The bucket that holds `burst` tokens and refills one each emission interval. -/
def SharedLimit.bucket (limit : SharedLimit) : Bucket ℚ where
  capacity := limit.burst
  interval := limit.emissionInterval
  holds := Nat.cast_nonneg _
  refills := Int.cast_pos.mpr limit.positive

section Simulation

variable {limit : SharedLimit} {row : BucketRow} {level : Level ℚ} {now : Int}

/-- How far the arrival time lies ahead of an instant. -/
def BucketRow.ahead (row : BucketRow) (at_ : Int) : Int := max row.tat at_ - at_

/-- The tokens a bucket holds are those its row's arrival time has not yet claimed. -/
structure Tracks (limit : SharedLimit) (row : BucketRow) (level : Level ℚ) : Prop where
  since : level.since = row.updatedAt
  tokens : level.tokens = limit.burst - row.ahead row.updatedAt / limit.emissionInterval

theorem BucketRow.ahead_nonneg (row : BucketRow) (at_ : Int) : 0 ≤ row.ahead at_ := by
  unfold BucketRow.ahead
  omega

theorem SharedLimit.emission_pos (limit : SharedLimit) : (0 : ℚ) < limit.emissionInterval :=
  Int.cast_pos.mpr limit.positive

theorem BucketRow.early_eq_ahead (row : BucketRow) (now : Int) :
    max (max row.tat now) row.updatedAt - max now row.updatedAt =
      row.ahead (max now row.updatedAt) := by
  rw [max_assoc]
  rfl

/-- Refilling moves the instant and leaves the arrival time. -/
theorem Tracks.refill (tracks : Tracks limit row level) (after : row.updatedAt ≤ now) :
    limit.bucket.refill level now = limit.burst - row.ahead now / limit.emissionInterval := by
  have positive := limit.emission_pos
  have elapsed : limit.bucket.refill level now = min (limit.burst : ℚ) (limit.burst +
      ((now - row.updatedAt : ℚ) - row.ahead row.updatedAt) / limit.emissionInterval) := by
    rw [Bucket.refill, tracks.since, tracks.tokens]
    change min (limit.burst : ℚ) (_ + _ / (limit.emissionInterval : ℚ)) = _
    congr 1
    ring
  rw [elapsed]
  rcases le_total row.tat now with passed | ahead
  · -- The arrival time has passed, so the bucket is full again.
    have none_ : row.ahead now = 0 := by
      unfold BucketRow.ahead
      omega
    have covered : (row.ahead row.updatedAt : ℚ) ≤ now - row.updatedAt := by
      have : row.ahead row.updatedAt ≤ now - row.updatedAt := by
        unfold BucketRow.ahead
        omega
      exact_mod_cast this
    rw [none_,
      min_eq_left (le_add_of_nonneg_right (div_nonneg (sub_nonneg.mpr covered) positive.le))]
    simp
  · have left : ((now : ℚ) - row.updatedAt) - row.ahead row.updatedAt = -row.ahead now := by
      have : (now - row.updatedAt) - row.ahead row.updatedAt = -row.ahead now := by
        unfold BucketRow.ahead
        omega
      exact_mod_cast this
    have claimed : (0 : ℚ) ≤ row.ahead now / limit.emissionInterval :=
      div_nonneg (Int.cast_nonneg (row.ahead_nonneg now)) positive.le
    rw [left, neg_div, ← sub_eq_add_neg, min_eq_right (sub_le_self _ claimed)]

/-- The statement's tolerance is one token. -/
theorem SharedLimit.conforms_iff (limit : SharedLimit) (ahead : Int) :
    ahead ≤ limit.tolerance ↔ (1 : ℚ) ≤ limit.burst - ahead / limit.emissionInterval := by
  rw [le_sub_comm, div_le_iff₀ limit.emission_pos, tolerance]
  exact_mod_cast Iff.rfl

/-- A decision on the row is the bucket's decision at the latest time seen. -/
theorem Tracks.update (tracks : Tracks limit row level) (now : Int) :
    (limit.update now row).allowed = (limit.bucket.spend level ↑(max now row.updatedAt)).1 ∧
      Tracks limit (limit.update now row)
        (limit.bucket.spend level ↑(max now row.updatedAt)).2 := by
  have refill := tracks.refill (le_max_right now row.updatedAt)
  unfold SharedLimit.update
  dsimp only
  rw [row.early_eq_ahead]
  by_cases conforms : row.ahead (max now row.updatedAt) ≤ limit.tolerance
  · have enough := (limit.conforms_iff _).mp conforms
    rw [← refill] at enough
    rw [Bucket.spend, if_pos enough, if_pos conforms, decide_eq_true conforms]
    refine ⟨rfl, rfl, ?_⟩
    have claims : BucketRow.ahead
        ⟨max (max row.tat now) row.updatedAt + limit.emissionInterval, true, max now row.updatedAt⟩
        (max now row.updatedAt) = row.ahead (max now row.updatedAt) + limit.emissionInterval := by
      have positive := limit.positive
      unfold BucketRow.ahead
      dsimp only
      omega
    rw [claims, refill, Int.cast_add, add_div, div_self limit.emission_pos.ne']
    ring
  · have short := mt (limit.conforms_iff _).mpr conforms
    rw [← refill] at short
    rw [Bucket.spend, if_neg short, if_neg conforms, decide_eq_false conforms]
    exact ⟨rfl, rfl, refill⟩

theorem Tracks.decisions (tracks : Tracks limit row level) (times : List Int) :
    limit.decisions (some row) times =
      limit.bucket.decisions level (effectiveAfter row.updatedAt times) := by
  induction times generalizing row level with
  | nil => rfl
  | cons now later ih =>
    obtain ⟨same, next⟩ := tracks.update now
    rw [effectiveAfter, Bucket.decisions, ← same, decisions]
    exact congrArg _ (ih next)

/-- A key never seen before stands for a row whose arrival time is now. -/
theorem SharedLimit.insert_eq_update (limit : SharedLimit) (now : Int) :
    limit.insert now = limit.update now ⟨now, true, now⟩ := by
  unfold SharedLimit.insert SharedLimit.update
  by_cases positive : 0 ≤ limit.tolerance <;> simp [positive]

theorem SharedLimit.decisions_eq (limit : SharedLimit) (times : List Int) :
    limit.decisions none times =
      limit.bucket.decisionsFromFull (effective times) := by
  cases times with
  | nil => rfl
  | cons now later =>
    have full : Tracks limit ⟨now, true, now⟩ ⟨limit.bucket.capacity, now⟩ :=
      ⟨rfl, by simp [BucketRow.ahead, bucket]⟩
    have run := full.decisions (now :: later)
    simp only [effectiveAfter, max_self] at run
    rw [effective, Bucket.decisionsFromFull, ← run]
    simp only [decisions, upsert, limit.insert_eq_update now]

end Simulation

theorem effectiveAfter_ordered (latest : Int) (times : List Int) :
    ((latest : ℚ) :: effectiveAfter latest times).IsChain (· ≤ ·) := by
  induction times generalizing latest with
  | nil => exact .singleton _
  | cons now later ih => exact .cons_cons (Int.cast_le.mpr (le_max_right now latest)) (ih _)

theorem SharedLimit.denied_of_no_burst {limit : SharedLimit} (none_ : limit.burst = 0)
    (row : Option BucketRow) (times : List Int) :
    ∀ allowed ∈ limit.decisions row times, allowed = false := by
  have negative : limit.tolerance < 0 := by
    have positive := limit.positive
    simp only [tolerance, none_]
    omega
  induction times generalizing row with
  | nil => exact nofun
  | cons now later ih =>
    intro allowed member
    rcases List.mem_cons.mp member with rfl | later_
    · cases row with
      | none => simpa [upsert, SharedLimit.insert] using negative
      | some row =>
        simp only [upsert, SharedLimit.update, row.early_eq_ahead,
          decide_eq_false_iff_not, not_le]
        exact negative.trans_le (row.ahead_nonneg _)
    · exact ih _ allowed later_

/-- The shared limiter decides as a token bucket of capacity `burst`, full at the first
statement, does at the latest statement time seen; a window of effective time allows at most
`burst` requests and one more per emission interval, and without a burst none. -/
theorem SharedLimit.decisions_tokenBucket (limit : SharedLimit) (times : List Int) :
    limit.decisions none times =
        limit.bucket.decisionsFromFull (effective times) ∧
      (∀ first length : ℚ, 0 ≤ length →
        (allowedWithin first (first + length) (effective times)
            (limit.decisions none times) : Int) ≤
          limit.burst + ⌊length / limit.emissionInterval⌋) ∧
      (limit.burst = 0 → ∀ allowed ∈ limit.decisions none times, allowed = false) := by
  refine ⟨limit.decisions_eq times, fun first length nonneg => ?_,
    fun none_ => denied_of_no_burst none_ none times⟩
  have bound : (allowedWithin first (first + length) (effective times)
      (limit.decisions none times) : ℚ) ≤ limit.burst + length / limit.emissionInterval := by
    rw [limit.decisions_eq]
    cases times with
    | nil =>
      exact (add_nonneg limit.bucket.holds (div_nonneg nonneg limit.bucket.refills.le)).trans'
        (by simp [allowedWithin, effective])
    | cons now later =>
      have allowed := limit.bucket.allowed_le ⟨limit.bucket.capacity, now⟩
        (le_add_of_nonneg_right nonneg : first ≤ first + length) limit.bucket.holds
        (List.IsChain.cons_cons (le_refl (now : ℚ)) (effectiveAfter_ordered now later))
      rwa [add_sub_cancel_left] at allowed
  rw [← sub_le_iff_le_add', Int.le_floor]
  push_cast
  linarith

/-- A burst of two over one second, and no burst. -/
theorem SharedLimit.decisions_tokenBucket_second :
    (allowedWithin 0 (0 + 1000000) (effective [0, 5, 3, 1000000])
        ((⟨1000000, 2, by decide⟩ : SharedLimit).decisions none [0, 5, 3, 1000000]) : Int) ≤
        (2 : Nat) + ⌊(1000000 : ℚ) / (1000000 : Int)⌋ ∧
      ∀ allowed ∈ (⟨1, 0, by decide⟩ : SharedLimit).decisions none [7], allowed = false :=
  ⟨((⟨1000000, 2, by decide⟩ : SharedLimit).decisions_tokenBucket
    [0, 5, 3, 1000000]).2.1 0 1000000 (by norm_num),
    ((⟨1, 0, by decide⟩ : SharedLimit).decisions_tokenBucket [7]).2.2 rfl⟩

end GreenGateway.Storage
