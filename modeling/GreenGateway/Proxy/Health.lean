import Mathlib

/-! Endpoint health: two streaks of observations, the active probe's and the passive one of
proxied responses, and the eligibility they move between healthy and unhealthy. -/

namespace GreenGateway.Proxy

section State

inductive Eligibility where
  | unknown
  | healthy
  | unhealthy
  deriving DecidableEq, Repr

inductive HealthTransition where
  | healthy
  | unhealthy
  deriving DecidableEq, Repr

def HealthTransition.eligibility : HealthTransition → Eligibility
  | .healthy => .healthy
  | .unhealthy => .unhealthy

structure UpstreamHealthStreak where
  consecutiveSuccesses : UInt32 := 0
  consecutiveFailures : UInt32 := 0
  deriving DecidableEq, Repr

structure UpstreamHealthState where
  eligibility : Eligibility := .unknown
  lastChecked : Option Int := none
  lastFailureCategory : Option String := none
  active : UpstreamHealthStreak := {}
  passive : UpstreamHealthStreak := {}
  deriving DecidableEq, Repr

structure UpstreamHealthCheckConfig where
  healthyThreshold : UInt32
  unhealthyThreshold : UInt32
  passiveFailureStatuses : List Nat
  deriving DecidableEq, Repr

structure Observation where
  succeeded : Bool
  observedAt : Int
  activeCheck : Bool
  failureCategory : Option String
  deriving DecidableEq, Repr

/-- `u32::saturating_add` of one. -/
def saturatingSucc (count : UInt32) : UInt32 :=
  if count.toNat < 2 ^ 32 - 1 then count + 1 else count

namespace UpstreamHealthState

def eligible (state : UpstreamHealthState) : Bool := state.eligibility == .healthy

def update (config : UpstreamHealthCheckConfig) (state : UpstreamHealthState)
    (observation : Observation) : Option HealthTransition × UpstreamHealthState :=
  let lastChecked :=
    if observation.activeCheck then some observation.observedAt else state.lastChecked
  let previous := state.eligibility
  let streak := if observation.activeCheck then state.active else state.passive
  let (streak, lastFailureCategory, transition) :=
    if observation.succeeded then
      let streak : UpstreamHealthStreak :=
        { consecutiveFailures := 0
          consecutiveSuccesses := saturatingSucc streak.consecutiveSuccesses }
      if config.healthyThreshold ≤ streak.consecutiveSuccesses then
        -- only the active probe readmits
        (streak, none,
          if observation.activeCheck ∧ previous ≠ .healthy then some HealthTransition.healthy
          else none)
      else (streak, state.lastFailureCategory, none)
    else
      let streak : UpstreamHealthStreak :=
        { consecutiveSuccesses := 0
          consecutiveFailures := saturatingSucc streak.consecutiveFailures }
      (streak, observation.failureCategory,
        if config.unhealthyThreshold ≤ streak.consecutiveFailures ∧ previous ≠ .unhealthy then
          some .unhealthy
        else none)
  let active := if observation.activeCheck then streak else state.active
  let passive := if observation.activeCheck then state.passive else streak
  match transition with
  | none => (none, { eligibility := previous, lastChecked, lastFailureCategory, active, passive })
  | some transition =>
    -- the other source's streak describes the state just left
    (some transition,
      { eligibility := transition.eligibility, lastChecked, lastFailureCategory
        active := if observation.activeCheck then active else {}
        passive := if observation.activeCheck then {} else passive })

def recordPassiveStatus (config : UpstreamHealthCheckConfig) (state : UpstreamHealthState)
    (status : Nat) (now : Int) : UpstreamHealthState :=
  let failed := config.passiveFailureStatuses.contains status
  (state.update config
    { succeeded := !failed, observedAt := now, activeCheck := false
      failureCategory := if failed then some "upstream_status" else none }).2

def recordPassiveFailure (config : UpstreamHealthCheckConfig) (state : UpstreamHealthState)
    (failureCategory : String) (now : Int) : UpstreamHealthState :=
  (state.update config
    { succeeded := false, observedAt := now, activeCheck := false
      failureCategory := some failureCategory }).2

/-- With whether the error is a passive health failure, and its category. -/
def recordPassiveError (config : UpstreamHealthCheckConfig) (state : UpstreamHealthState)
    (isPassiveHealthFailure : Bool) (safeCategory : String) (now : Int) : UpstreamHealthState :=
  if !isPassiveHealthFailure then state
  else recordPassiveFailure config state safeCategory now

end UpstreamHealthState

end State

section Steps

variable {config : UpstreamHealthCheckConfig} {state : UpstreamHealthState}
  {observation : Observation}

theorem saturatingSucc_toNat (count : UInt32) :
    (saturatingSucc count).toNat = min (count.toNat + 1) (2 ^ 32 - 1) := by
  have := count.toNat_lt
  unfold saturatingSucc
  split
  · rw [UInt32.toNat_add, UInt32.toNat_one, Nat.mod_eq_of_lt (by omega)]
    omega
  · omega

/-- The streak of a source. -/
def UpstreamHealthState.streak (state : UpstreamHealthState) (activeCheck : Bool) :
    UpstreamHealthStreak :=
  if activeCheck then state.active else state.passive

/-- A streak with one more observation. -/
def UpstreamHealthStreak.extended (streak : UpstreamHealthStreak) (succeeded : Bool) :
    UpstreamHealthStreak :=
  if succeeded then
    { consecutiveFailures := 0, consecutiveSuccesses := saturatingSucc streak.consecutiveSuccesses }
  else
    { consecutiveSuccesses := 0, consecutiveFailures := saturatingSucc streak.consecutiveFailures }

namespace UpstreamHealthState

theorem update_healthy_iff : (state.update config observation).1 = some .healthy ↔
    observation.activeCheck = true ∧ observation.succeeded = true ∧ state.eligibility ≠ .healthy ∧
      config.healthyThreshold ≤
        saturatingSucc (state.streak observation.activeCheck).consecutiveSuccesses := by
  unfold update streak
  cases observation.succeeded <;> cases observation.activeCheck <;> grind

theorem update_unhealthy_iff : (state.update config observation).1 = some .unhealthy ↔
    observation.succeeded = false ∧ state.eligibility ≠ .unhealthy ∧
      config.unhealthyThreshold ≤
        saturatingSucc (state.streak observation.activeCheck).consecutiveFailures := by
  unfold update streak
  cases observation.succeeded <;> cases observation.activeCheck <;> grind

theorem update_eligibility (config : UpstreamHealthCheckConfig) (state : UpstreamHealthState)
    (observation : Observation) : (state.update config observation).2.eligibility =
    match (state.update config observation).1 with
    | none => state.eligibility
    | some transition => transition.eligibility := by
  unfold update
  cases observation.succeeded <;> cases observation.activeCheck <;> grind

theorem update_streak (config : UpstreamHealthCheckConfig) (state : UpstreamHealthState)
    (observation : Observation) (activeCheck : Bool) :
    (state.update config observation).2.streak activeCheck =
      if activeCheck = observation.activeCheck then
        (state.streak activeCheck).extended observation.succeeded
      else if (state.update config observation).1 = none then state.streak activeCheck
      else {} := by
  unfold update streak UpstreamHealthStreak.extended
  cases activeCheck <;> cases observation.succeeded <;> cases observation.activeCheck <;> grind

end UpstreamHealthState

end Steps

section Histories

/-- An observation and the transition it made. -/
structure HealthEntry where
  observation : Observation
  transition : Option HealthTransition
  deriving DecidableEq, Repr

/-- The active successes up to now, newest first, with no active failure among them and no
exclusion since the first of them. -/
def activeSuccesses : List HealthEntry → Nat
  | [] => 0
  | entry :: older =>
    if entry.transition = some .unhealthy then 0
    else if entry.observation.activeCheck then
      if entry.observation.succeeded then activeSuccesses older + 1 else 0
    else activeSuccesses older

/-- The failures a source has observed in a row up to now, newest first, since the last change to
healthy. -/
def failures (activeCheck : Bool) : List HealthEntry → Nat
  | [] => 0
  | entry :: older =>
    if entry.transition = some .healthy then 0
    else if entry.observation.activeCheck = activeCheck then
      if entry.observation.succeeded then 0 else failures activeCheck older + 1
    else failures activeCheck older

/-- The changes of eligibility, newest first. -/
def transitions (history : List HealthEntry) : List HealthTransition :=
  history.filterMap HealthEntry.transition

structure HealthTrace where
  state : UpstreamHealthState := {}
  history : List HealthEntry := []

namespace HealthTrace

variable (config : UpstreamHealthCheckConfig)

def observe (trace : HealthTrace) (observation : Observation) : HealthTrace :=
  { state := (trace.state.update config observation).2
    history := { observation, transition := (trace.state.update config observation).1 } ::
      trace.history }

def run (observations : List Observation) : HealthTrace := observations.foldl (observe config) {}

/-- What the state remembers of the history. -/
structure Kept (trace : HealthTrace) : Prop where
  successes : (trace.state.active.consecutiveSuccesses).toNat =
    min (activeSuccesses trace.history) (2 ^ 32 - 1)
  /-- While it is excluded nothing depends on the failures. -/
  failures : trace.state.eligibility ≠ .unhealthy → ∀ activeCheck,
    (trace.state.streak activeCheck).consecutiveFailures.toNat =
      Proxy.failures activeCheck trace.history ∧
    Proxy.failures activeCheck trace.history < config.unhealthyThreshold.toNat
  last : (transitions trace.history).head?.map HealthTransition.eligibility =
    if trace.state.eligibility = .unknown then none else some trace.state.eligibility
  alternate : (transitions trace.history).IsChain (· ≠ ·)

end HealthTrace

end Histories

section Runs

variable {config : UpstreamHealthCheckConfig} {trace : HealthTrace} {observation : Observation}

namespace HealthTrace

theorem empty_kept (some_ : 1 ≤ config.unhealthyThreshold.toNat) : Kept config {} where
  successes := rfl
  failures _ activeCheck := by
    cases activeCheck
    · exact ⟨rfl, some_⟩
    · exact ⟨rfl, some_⟩
  last := rfl
  alternate := .nil

/-- A threshold is met by a saturated count just when it is met by the count. -/
theorem le_saturatingSucc_iff {threshold count : UInt32} {exact_ : Nat}
    (tracks : count.toNat = min exact_ (2 ^ 32 - 1)) :
    threshold ≤ saturatingSucc count ↔ threshold.toNat ≤ exact_ + 1 := by
  have := threshold.toNat_lt
  rw [UInt32.le_iff_toNat_le, saturatingSucc_toNat, tracks]
  omega

theorem Kept.healthy_iff (kept : Kept config trace) :
    (trace.state.update config observation).1 = some .healthy ↔
      observation.activeCheck = true ∧ observation.succeeded = true ∧
        trace.state.eligibility ≠ .healthy ∧
        config.healthyThreshold.toNat ≤ activeSuccesses trace.history + 1 := by
  rw [UpstreamHealthState.update_healthy_iff]
  constructor
  · rintro ⟨active, succeeded, unready, enough⟩
    rw [active] at enough
    exact ⟨active, succeeded, unready, (le_saturatingSucc_iff kept.successes).mp enough⟩
  · rintro ⟨active, succeeded, unready, enough⟩
    rw [active]
    exact ⟨rfl, succeeded, unready, (le_saturatingSucc_iff kept.successes).mpr enough⟩

theorem Kept.unhealthy_iff (kept : Kept config trace) :
    (trace.state.update config observation).1 = some .unhealthy ↔
      trace.state.eligibility ≠ .unhealthy ∧ observation.succeeded = false ∧
        Proxy.failures observation.activeCheck trace.history + 1 =
          config.unhealthyThreshold.toNat := by
  rw [UpstreamHealthState.update_unhealthy_iff]
  have threshold := config.unhealthyThreshold.toNat_lt
  constructor
  · rintro ⟨failed, included, enough⟩
    obtain ⟨tracks, few⟩ := kept.failures included observation.activeCheck
    rw [UInt32.le_iff_toNat_le, saturatingSucc_toNat, tracks] at enough
    exact ⟨included, failed, by omega⟩
  · rintro ⟨included, failed, reached⟩
    obtain ⟨tracks, few⟩ := kept.failures included observation.activeCheck
    refine ⟨failed, included, ?_⟩
    rw [UInt32.le_iff_toNat_le, saturatingSucc_toNat, tracks]
    omega

theorem update_ne {transition : HealthTransition}
    (made : (trace.state.update config observation).1 = some transition) :
    trace.state.eligibility ≠ transition.eligibility := by
  cases transition with
  | healthy => exact (UpstreamHealthState.update_healthy_iff.mp made).2.2.1
  | unhealthy => exact (UpstreamHealthState.update_unhealthy_iff.mp made).2.1

theorem Kept.successes_observe (kept : Kept config trace) (observation : Observation) :
    ((trace.observe config observation).state.active.consecutiveSuccesses).toNat =
      min (activeSuccesses (trace.observe config observation).history) (2 ^ 32 - 1) := by
  have streak := UpstreamHealthState.update_streak config trace.state observation true
  change (trace.observe config observation).state.active = _ at streak
  rw [streak, HealthTrace.observe, activeSuccesses]
  dsimp only
  cases active : observation.activeCheck with
  | true =>
    cases succeeded : observation.succeeded with
    | true =>
      have included : (trace.state.update config observation).1 ≠ some .unhealthy := by
        rw [Ne, UpstreamHealthState.update_unhealthy_iff, succeeded]
        exact nofun
      have tracks := kept.successes
      simp only [if_true, if_neg included, UpstreamHealthStreak.extended, saturatingSucc_toNat]
      change min (trace.state.active.consecutiveSuccesses.toNat + 1) _ = _
      omega
    | false =>
      simp only [if_true, UpstreamHealthStreak.extended, Bool.false_eq_true, if_false, ite_self]
      rfl
  | false =>
    simp only [Bool.true_eq_false, Bool.false_eq_true, if_false]
    cases made : (trace.state.update config observation).1 with
    | none => exact kept.successes
    | some transition =>
      cases transition with
      | healthy =>
        rw [UpstreamHealthState.update_healthy_iff, active] at made
        exact nomatch made.1
      | unhealthy => rfl

theorem Kept.failures_observe (kept : Kept config trace)
    (some_ : 1 ≤ config.unhealthyThreshold.toNat) (observation : Observation)
    (included : (trace.observe config observation).state.eligibility ≠ .unhealthy)
    (activeCheck : Bool) :
    ((trace.observe config observation).state.streak activeCheck).consecutiveFailures.toNat =
        Proxy.failures activeCheck (trace.observe config observation).history ∧
      Proxy.failures activeCheck (trace.observe config observation).history <
        config.unhealthyThreshold.toNat := by
  have eligibility := UpstreamHealthState.update_eligibility config trace.state observation
  have streak := UpstreamHealthState.update_streak config trace.state observation activeCheck
  change (trace.observe config observation).state.eligibility = _ at eligibility
  change (trace.observe config observation).state.streak activeCheck = _ at streak
  rw [streak, HealthTrace.observe, Proxy.failures]
  dsimp only
  cases made : (trace.state.update config observation).1 with
  | none =>
    rw [made] at eligibility
    have stays : trace.state.eligibility ≠ .unhealthy := fun same => included (eligibility.trans same)
    obtain ⟨tracks, few⟩ := kept.failures stays activeCheck
    by_cases own : activeCheck = observation.activeCheck
    · subst own
      cases succeeded : observation.succeeded with
      | true =>
        simp only [if_true, UpstreamHealthStreak.extended, reduceCtorEq, if_false]
        exact ⟨rfl, some_⟩
      | false =>
        have short : Proxy.failures observation.activeCheck trace.history + 1 ≠
            config.unhealthyThreshold.toNat := by
          intro reached
          have excluded := kept.unhealthy_iff.mpr ⟨stays, succeeded, reached⟩
          cases made.symm.trans excluded
        have threshold := config.unhealthyThreshold.toNat_lt
        simp only [UpstreamHealthStreak.extended, saturatingSucc_toNat, if_true, reduceCtorEq,
          Bool.false_eq_true, if_false, tracks]
        omega
    · simpa [own, Ne.symm own] using ⟨tracks, few⟩
  | some transition =>
    rw [made] at eligibility
    cases transition with
    | unhealthy => exact absurd eligibility included
    | healthy =>
      obtain ⟨-, succeeded, -⟩ := UpstreamHealthState.update_healthy_iff.mp made
      rw [succeeded]
      simp only [if_true, UpstreamHealthStreak.extended, reduceCtorEq, if_false]
      split
      · exact ⟨rfl, some_⟩
      · exact ⟨rfl, some_⟩

theorem Kept.observe (kept : Kept config trace) (some_ : 1 ≤ config.unhealthyThreshold.toNat)
    (observation : Observation) : Kept config (trace.observe config observation) := by
  have eligibility := UpstreamHealthState.update_eligibility config trace.state observation
  refine ⟨kept.successes_observe observation, kept.failures_observe some_ observation, ?_, ?_⟩
  · simp only [HealthTrace.observe, transitions, List.filterMap_cons, eligibility]
    cases made : (trace.state.update config observation).1 with
    | none => exact kept.last
    | some transition => cases transition <;> rfl
  · simp only [HealthTrace.observe, transitions, List.filterMap_cons]
    cases made : (trace.state.update config observation).1 with
    | none => exact kept.alternate
    | some transition =>
      refine List.isChain_cons.mpr ⟨fun previous newest same => ?_, kept.alternate⟩
      have leaves := update_ne made
      have last := kept.last
      rw [transitions, Option.mem_def.mp newest, Option.map_some, ← same] at last
      split at last
      · cases last
      · exact leaves (Option.some.inj last).symm

theorem run_kept (some_ : 1 ≤ config.unhealthyThreshold.toNat) (observations : List Observation) :
    Kept config (run config observations) := by
  induction observations using List.reverseRecOn with
  | nil => exact empty_kept some_
  | append_singleton observations observation ih =>
    rw [run, List.foldl_append]
    exact ih.observe some_ observation

end HealthTrace

/-- Whatever was observed before, the next observation readmits the endpoint only as an active
success that completes a clean streak, and excludes it just when its source's failures since the
last change to healthy reach the threshold; a passive success changes nothing; and the changes
alternate. -/
theorem UpstreamHealthState.update_hysteresis (config : UpstreamHealthCheckConfig)
    (some_ : 1 ≤ config.healthyThreshold.toNat ∧ 1 ≤ config.unhealthyThreshold.toNat)
    (observations : List Observation) (next : Observation) :
    let before := HealthTrace.run config observations
    let after := before.observe config next
    (before.state.eligible = false → after.state.eligible = true →
      next.activeCheck = true ∧ next.succeeded = true ∧
        config.healthyThreshold.toNat ≤ activeSuccesses after.history) ∧
      (next.activeCheck = false → next.succeeded = true →
        after.state.eligibility = before.state.eligibility) ∧
      (after.state.eligibility = .unhealthy ∧ before.state.eligibility ≠ .unhealthy ↔
        before.state.eligibility ≠ .unhealthy ∧ next.succeeded = false ∧
          failures next.activeCheck after.history = config.unhealthyThreshold.toNat) ∧
      (transitions after.history).IsChain (· ≠ ·) := by
  intro before after
  have kept := HealthTrace.run_kept some_.2 observations
  have eligibility := update_eligibility config before.state next
  change after.state.eligibility = _ at eligibility
  refine ⟨fun unready ready => ?_, fun passive succeeded => ?_, ?_, (kept.observe some_.2 next).alternate⟩
  · simp only [eligible, beq_iff_eq, beq_eq_false_iff_ne] at unready ready
    have made : (before.state.update config next).1 = some .healthy := by
      cases made : (before.state.update config next).1 with
      | none =>
        rw [made] at eligibility
        exact absurd (eligibility.symm.trans ready) unready
      | some transition =>
        rw [made] at eligibility
        cases transition with
        | healthy => rfl
        | unhealthy => cases eligibility.symm.trans ready
    obtain ⟨active, succeeded, -, enough⟩ := kept.healthy_iff.mp made
    refine ⟨active, succeeded, ?_⟩
    simpa [after, HealthTrace.observe, activeSuccesses, made, active, succeeded] using enough
  · have unmade : (before.state.update config next).1 = none := by
      cases made : (before.state.update config next).1 with
      | none => rfl
      | some transition =>
        cases transition with
        | healthy => cases passive.symm.trans (update_healthy_iff.mp made).1
        | unhealthy => cases succeeded.symm.trans (update_unhealthy_iff.mp made).1
    rw [unmade] at eligibility
    exact eligibility
  · have made : after.state.eligibility = .unhealthy ∧ before.state.eligibility ≠ .unhealthy ↔
        (before.state.update config next).1 = some .unhealthy := by
      rw [eligibility]
      cases made : (before.state.update config next).1 with
      | none => simp
      | some transition =>
        have leaves := HealthTrace.update_ne made
        cases transition with
        | healthy => simp [HealthTransition.eligibility]
        | unhealthy => simpa [HealthTransition.eligibility] using leaves
    rw [made, kept.unhealthy_iff]
    refine and_congr_right fun included => and_congr_right fun failed => ?_
    have unready : (before.state.update config next).1 ≠ some .healthy := by
      rw [Ne, update_healthy_iff, failed]
      exact nofun
    have counted : failures next.activeCheck after.history =
        failures next.activeCheck before.history + 1 := by
      simp [after, HealthTrace.observe, failures, unready, failed]
    rw [counted]

/-- Two active successes readmit, two passive failures exclude. -/
theorem UpstreamHealthState.update_hysteresis_sample :
    let config : UpstreamHealthCheckConfig :=
      { healthyThreshold := 2, unhealthyThreshold := 2, passiveFailureStatuses := [503] }
    let probe : Observation :=
      { succeeded := true, observedAt := 0, activeCheck := true, failureCategory := none }
    let refused : Observation :=
      { succeeded := false, observedAt := 1, activeCheck := false
        failureCategory := some "upstream_status" }
    (HealthTrace.run config [probe, probe]).state.eligible = true ∧
      (HealthTrace.run config [probe, probe, refused, refused]).state.eligibility = .unhealthy ∧
      failures false (HealthTrace.run config [probe, probe, refused, refused]).history = 2 := by
  intro config probe refused
  have excluded : (HealthTrace.run config [probe, probe, refused, refused]).state.eligibility =
      .unhealthy := by decide
  refine ⟨by decide, excluded, ?_⟩
  obtain ⟨-, -, reached, -⟩ := update_hysteresis config (by decide) [probe, probe, refused] refused
  exact (reached.mp ⟨excluded, by decide⟩).2.2

end Runs

end GreenGateway.Proxy
