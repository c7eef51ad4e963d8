import Mathlib.Algebra.Order.Field.Basic
import Mathlib.Algebra.Order.Floor.Defs
import Mathlib.Tactic.Linarith
import Mathlib.Tactic.Ring

/-! A token bucket that refills continuously, and how many of its decisions a window of time
can allow. -/

namespace Foundation.TokenBucket

variable {K : Type*} [Field K] [LinearOrder K]

/-- How many tokens a bucket can hold, and how long it takes to refill one. -/
structure Bucket (K : Type*) [Field K] [LinearOrder K] where
  capacity : K
  interval : K
  holds : 0 ≤ capacity
  refills : 0 < interval

/-- The tokens held at an instant. -/
structure Level (K : Type*) where
  tokens : K
  since : K

/-- The tokens held at a later instant. -/
def Bucket.refill (bucket : Bucket K) (level : Level K) (now : K) : K :=
  min bucket.capacity (level.tokens + (now - level.since) / bucket.interval)

/-- A request spends one token if the bucket holds one. -/
def Bucket.spend (bucket : Bucket K) (level : Level K) (now : K) : Bool × Level K :=
  let held := bucket.refill level now
  if 1 ≤ held then (true, ⟨held - 1, now⟩) else (false, ⟨held, now⟩)

/-- The decisions on requests at the given instants. -/
def Bucket.decisions (bucket : Bucket K) (level : Level K) : List K → List Bool
  | [] => []
  | now :: later =>
    (bucket.spend level now).1 :: bucket.decisions (bucket.spend level now).2 later

/-- The decisions of a bucket that is full at the first request. -/
def Bucket.decisionsFromFull (bucket : Bucket K) : List K → List Bool
  | [] => []
  | now :: later => bucket.decisions ⟨bucket.capacity, now⟩ (now :: later)

/-- How many requests between two instants were allowed. -/
def allowedWithin (first last : K) (times : List K) (decisions : List Bool) : Nat :=
  (times.zip decisions).countP fun request =>
    decide (first ≤ request.1 ∧ request.1 ≤ last) && request.2

section Windows

variable {bucket : Bucket K} {level : Level K} {first last now : K} {times later : List K}

theorem Bucket.spend_since (level : Level K) (now : K) :
    (bucket.spend level now).2.since = now := by
  unfold Bucket.spend
  dsimp only
  split <;> rfl

/-- A decision costs the token it allows. -/
theorem Bucket.spend_tokens (level : Level K) (now : K) :
    ((bucket.spend level now).1.toNat : K) + (bucket.spend level now).2.tokens =
      bucket.refill level now := by
  unfold Bucket.spend
  dsimp only
  split <;> simp

omit [Field K] in
theorem allowedWithin_cons (decision : Bool) (decisions : List Bool) :
    allowedWithin first last (now :: later) (decision :: decisions) =
      allowedWithin first last later decisions +
        if first ≤ now ∧ now ≤ last then decision.toNat else 0 := by
  unfold allowedWithin
  rw [List.zip_cons_cons, List.countP_cons]
  by_cases inside : first ≤ now ∧ now ≤ last <;> cases decision <;> simp [inside]

variable [IsStrictOrderedRing K]

theorem Bucket.refill_nonneg (held : 0 ≤ level.tokens) (later : level.since ≤ now) :
    0 ≤ bucket.refill level now :=
  le_min bucket.holds
    (add_nonneg held (div_nonneg (sub_nonneg.mpr later) bucket.refills.le))

theorem Bucket.spend_nonneg (held : 0 ≤ level.tokens) (later : level.since ≤ now) :
    0 ≤ (bucket.spend level now).2.tokens := by
  have refilled := bucket.refill_nonneg held later
  unfold Bucket.spend
  dsimp only
  split
  · case isTrue enough => exact sub_nonneg.mpr enough
  · exact refilled

/-- Once the window is open, what is left to allow is what the bucket holds and what it still
refills before the window closes. -/
theorem Bucket.allowed_le_held (first last : K) (held : 0 ≤ level.tokens)
    (ordered : (level.since :: times).IsChain (· ≤ ·)) :
    (allowedWithin first last times (bucket.decisions level times) : K) ≤
      if level.since ≤ last then level.tokens + (last - level.since) / bucket.interval else 0 := by
  induction times generalizing level with
  | nil =>
    split
    · case isTrue open_ =>
      simpa [allowedWithin] using
        add_nonneg held (div_nonneg (sub_nonneg.mpr open_) bucket.refills.le)
    · simp [allowedWithin]
  | cons now later ih =>
    obtain ⟨after, ordered⟩ := List.isChain_cons_cons.mp ordered
    have rest := ih (bucket.spend_nonneg held after) ((bucket.spend_since level now).symm ▸ ordered)
    rw [bucket.spend_since] at rest
    rw [Bucket.decisions, allowedWithin_cons]
    by_cases closing : now ≤ last
    · rw [if_pos closing] at rest
      rw [if_pos (after.trans closing)]
      have gained : bucket.refill level now ≤ level.tokens +
          (now - level.since) / bucket.interval := min_le_right _ _
      have spent := bucket.spend_tokens level now
      have elapsed : (now - level.since) / bucket.interval + (last - now) / bucket.interval =
          (last - level.since) / bucket.interval := by
        rw [← add_div]
        ring
      have counted : ((if first ≤ now ∧ now ≤ last then (bucket.spend level now).1.toNat
          else 0 : Nat) : K) ≤ ((bucket.spend level now).1.toNat : K) := by
        split <;> simp
      push_cast at counted ⊢
      linarith
    · rw [if_neg closing] at rest
      have unseen : ¬(first ≤ now ∧ now ≤ last) := fun inside => closing inside.2
      rw [if_neg unseen, Nat.add_zero]
      refine rest.trans ?_
      split
      · case isTrue open_ =>
        exact add_nonneg held (div_nonneg (sub_nonneg.mpr open_) bucket.refills.le)
      · exact le_refl 0

/-- A window allows at most a full bucket and what is refilled while it is open. -/
theorem Bucket.allowed_le (level : Level K) (window : first ≤ last) (held : 0 ≤ level.tokens)
    (ordered : (level.since :: times).IsChain (· ≤ ·)) :
    (allowedWithin first last times (bucket.decisions level times) : K) ≤
      bucket.capacity + (last - first) / bucket.interval := by
  have open_ : 0 ≤ (last - first) / bucket.interval :=
    div_nonneg (sub_nonneg.mpr window) bucket.refills.le
  induction times generalizing level with
  | nil => simpa [allowedWithin] using add_nonneg bucket.holds open_
  | cons now later ih =>
    obtain ⟨after, ordered⟩ := List.isChain_cons_cons.mp ordered
    have kept := bucket.spend_nonneg held after
    have ordered' := (bucket.spend_since level now).symm ▸ ordered
    rw [Bucket.decisions, allowedWithin_cons]
    by_cases opened : first ≤ now
    · -- The first request of the window finds at most a full bucket.
      have rest := bucket.allowed_le_held first last kept ordered'
      rw [bucket.spend_since] at rest
      have full : bucket.refill level now ≤ bucket.capacity := min_le_left _ _
      have spent := bucket.spend_tokens level now
      by_cases closing : now ≤ last
      · have shorter : (last - now) / bucket.interval ≤ (last - first) / bucket.interval :=
          div_le_div_of_nonneg_right (by linarith) bucket.refills.le
        rw [if_pos closing] at rest
        rw [if_pos ⟨opened, closing⟩]
        push_cast
        linarith
      · rw [if_neg closing] at rest
        rw [if_neg fun inside => closing inside.2, Nat.add_zero]
        exact rest.trans (add_nonneg bucket.holds open_)
    · rw [if_neg fun inside => opened inside.1, Nat.add_zero]
      exact ih _ kept ordered'

end Windows

end Foundation.TokenBucket
