import Mathlib

/-! The circuit breaker of an endpoint. A permit outlives the state it was issued in, so the
breaker counts its half-open permits by generation, in whatever order they come back. -/

namespace GreenGateway.Proxy

open List

section Breaker

structure UpstreamCircuitBreakerConfig where
  failureThreshold : Nat
  openMs : Nat
  halfOpenMaxRequests : Nat
  recoveryThreshold : Nat

/-- Instants are nanoseconds. -/
def failureWindow : Nat := 60 * 10 ^ 9

/-- Generations wrap at 64 bits and counters saturate at 32. -/
inductive CircuitState where
  | closed (generation consecutiveFailures : Nat) (windowStartedAt : Option Nat)
  | open_ (generation until_ : Nat)
  | halfOpen (generation inFlight successes : Nat)

inductive PermitKind where
  | closed
  | halfOpen
  deriving DecidableEq

structure CircuitPermit where
  generation : Nat
  kind : PermitKind
  deriving DecidableEq

def wrappingSucc (generation : Nat) : Nat := (generation + 1) % 2 ^ 64

def saturating (count : Nat) : Nat := min count (2 ^ 32 - 1)

namespace CircuitState

def generation : CircuitState → Nat
  | closed generation _ _ | open_ generation _ | halfOpen generation _ _ => generation

variable (config : UpstreamCircuitBreakerConfig) (state : CircuitState)

def tryAcquire (now : Nat) : CircuitState × Option CircuitPermit :=
  match state with
  | closed generation _ _ => (state, some ⟨generation, .closed⟩)
  | open_ generation until_ =>
    if now < until_ then (state, none)
    else (halfOpen (wrappingSucc generation) 1 0, some ⟨wrappingSucc generation, .halfOpen⟩)
  | halfOpen generation inFlight successes =>
    if inFlight < config.halfOpenMaxRequests then
      (halfOpen generation (inFlight + 1) successes, some ⟨generation, .halfOpen⟩)
    else (state, none)

def recordSuccess (generation : Nat) (kind : PermitKind) : CircuitState :=
  match state, kind with
  | closed current _ _, .closed => if current = generation then closed generation 0 none else state
  | halfOpen current inFlight successes, .halfOpen =>
    if current = generation then
      let successes := saturating (successes + 1)
      if config.recoveryThreshold ≤ successes then closed (wrappingSucc generation) 0 none
      else halfOpen generation (inFlight - 1) successes
    else state
  | _, _ => state

def recordFailure (generation : Nat) (kind : PermitKind) (now : Nat) : CircuitState :=
  match state, kind with
  | closed current consecutiveFailures windowStartedAt, .closed =>
    if current = generation then
      let windowExpired := windowStartedAt.any fun started => failureWindow ≤ now - started
      let failures := if windowExpired then 1 else saturating (consecutiveFailures + 1)
      if config.failureThreshold ≤ failures then
        open_ (wrappingSucc generation) (now + config.openMs * 10 ^ 6)
      else closed generation failures
        (if consecutiveFailures = 0 ∨ windowExpired then some now else windowStartedAt)
    else state
  | halfOpen current _ _, .halfOpen =>
    if current = generation then
      open_ (wrappingSucc generation) (now + config.openMs * 10 ^ 6)
    else state
  | _, _ => state

def cancel (generation : Nat) (kind : PermitKind) : CircuitState :=
  match state, kind with
  | halfOpen current inFlight successes, .halfOpen =>
    if current = generation then halfOpen generation (inFlight - 1) successes else state
  | _, _ => state

end CircuitState

namespace CircuitPermit

variable (config : UpstreamCircuitBreakerConfig) (permit : CircuitPermit) (state : CircuitState)

/-- `Drop::drop`, which also runs on a permit that was completed. -/
def drop (completed : Bool) : CircuitState :=
  if !completed then state.cancel permit.generation permit.kind else state

def success : CircuitState :=
  permit.drop (state.recordSuccess config permit.generation permit.kind) true

def failure (now : Nat) : CircuitState :=
  permit.drop (state.recordFailure config permit.generation permit.kind now) true

end CircuitPermit

end Breaker

section Interleavings

/-- What a client does, at what its clock reads. -/
inductive CircuitEvent where
  | acquire (now : Nat)
  | success (permit : CircuitPermit)
  | failure (permit : CircuitPermit) (now : Nat)
  | drop (permit : CircuitPermit)
  deriving DecidableEq

namespace CircuitEvent

/-- The permit that an event consumes. -/
def permit? : CircuitEvent → Option CircuitPermit
  | acquire _ => none
  | success permit | failure permit _ | drop permit => some permit

/-- What an event makes of the state, and the permit it issues. -/
def apply (config : UpstreamCircuitBreakerConfig) (state : CircuitState) :
    CircuitEvent → CircuitState × Option CircuitPermit
  | acquire now => state.tryAcquire config now
  | success permit => (permit.success config state, none)
  | failure permit now => (permit.failure config state now, none)
  | drop permit => (permit.drop state false, none)

end CircuitEvent

/-- The breaker, the permits its clients hold and how many transitions there were. -/
structure Circuit where
  state : CircuitState := .closed 0 0 none
  live : List CircuitPermit := []
  transitions : Nat := 0

namespace Circuit

variable (config : UpstreamCircuitBreakerConfig) (circuit : Circuit)

/-- After an event; a new generation is a transition. -/
def next (event : CircuitEvent) : Circuit :=
  let (state, issued) := event.apply config circuit.state
  { state
    live := issued.toList ++ circuit.live.diff event.permit?.toList
    transitions := circuit.transitions +
      if state.generation = circuit.state.generation then 0 else 1 }

/-- A client consumes only a permit that it holds. -/
def step (event : CircuitEvent) : Option Circuit :=
  if ∀ permit ∈ event.permit?, permit ∈ circuit.live then some (circuit.next config event)
  else none

/-- The events of all clients, in the order in which the lock lets them in. -/
def run (events : List CircuitEvent) : Option Circuit := events.foldlM (step config) {}

end Circuit

/-- The failures of closed permits of a generation since the last success of one. -/
def failuresSince (generation : Nat) (events : List CircuitEvent) : Nat :=
  events.foldl (fun count event => match event with
    | .success permit => if permit = ⟨generation, .closed⟩ then 0 else count
    | .failure permit _ => if permit = ⟨generation, .closed⟩ then count + 1 else count
    | .acquire _ | .drop _ => count) 0

variable (config : UpstreamCircuitBreakerConfig) (events : List CircuitEvent)

/-- What the events up to a step must show for it. -/
def Warranted (event : CircuitEvent) : CircuitState → CircuitState → Prop
  | .closed generation _ _, .open_ _ until_ =>
    ∃ now, event = .failure ⟨generation, .closed⟩ now ∧ until_ = now + config.openMs * 10 ^ 6 ∧
      config.failureThreshold ≤ failuresSince generation events
  | .open_ _ until_, .halfOpen _ _ _ => ∃ now, event = .acquire now ∧ until_ ≤ now
  | .halfOpen generation _ _, .open_ _ until_ =>
    ∃ now, event = .failure ⟨generation, .halfOpen⟩ now ∧ until_ = now + config.openMs * 10 ^ 6
  | .halfOpen generation _ _, .closed _ _ _ =>
    config.recoveryThreshold ≤ events.count (.success ⟨generation, .halfOpen⟩) ∧
      ∀ now, .failure ⟨generation, .halfOpen⟩ now ∉ events
  | .closed before _ _, .closed after _ _ | .halfOpen before _ _, .halfOpen after _ _ =>
    after = before
  | .open_ before until_, .open_ after later => after = before ∧ later = until_
  | _, _ => False

/-- What the counters of a half-open state count: permits of its generation. -/
structure Counts (live : List CircuitPermit) (generation inFlight successes : Nat) : Prop where
  held : inFlight = live.count ⟨generation, .halfOpen⟩
  bounded : inFlight ≤ config.halfOpenMaxRequests
  succeeded : successes ≤ events.count (.success ⟨generation, .halfOpen⟩)
  unfailed : ∀ now, .failure ⟨generation, .halfOpen⟩ now ∉ events

/-- The generation counts transitions, no permit is ahead of it, and every counter counts. -/
structure Accounts (circuit : Circuit) : Prop where
  counted : circuit.state.generation = circuit.transitions
  issued : ∀ permit ∈ circuit.live ++ events.filterMap CircuitEvent.permit?,
    permit.generation ≤ circuit.transitions
  closed : ∀ generation failures window, circuit.state = .closed generation failures window →
    failures ≤ failuresSince generation events
  halfOpen : ∀ generation inFlight successes,
    circuit.state = .halfOpen generation inFlight successes →
    Counts config events circuit.live generation inFlight successes

end Interleavings

section Accounts

variable {config : UpstreamCircuitBreakerConfig} {circuit after : Circuit} {state : CircuitState}
  {events : List CircuitEvent} {event : CircuitEvent} {permit : CircuitPermit}
  {generation inFlight successes failures : Nat} {window : Option Nat}

attribute [local grind cases] CircuitState PermitKind CircuitPermit CircuitEvent

attribute [local grind =] CircuitState.generation CircuitState.tryAcquire
  CircuitState.recordSuccess CircuitState.recordFailure CircuitState.cancel CircuitPermit.success
  CircuitPermit.failure CircuitPermit.drop CircuitEvent.permit? CircuitEvent.apply saturating

namespace CircuitEvent

theorem apply_issued (issued : (event.apply config state).2 = some permit) :
    permit.generation = (event.apply config state).1.generation := by
  grind

/-- A permit of another generation changes nothing. -/
theorem apply_stale (consumed : event.permit? = some permit)
    (stale : permit.generation ≠ state.generation) : event.apply config state = (state, none) := by
  grind

end CircuitEvent

theorem failuresSince_failure (now : Nat) :
    failuresSince generation (events ++ [.failure ⟨generation, .closed⟩ now]) =
      failuresSince generation events + 1 := by
  simp [failuresSince]

theorem failuresSince_le (unreset : event ≠ .success ⟨generation, .closed⟩) :
    failuresSince generation events ≤ failuresSince generation (events ++ [event]) := by
  rw [failuresSince, failuresSince, foldl_append]
  grind

theorem Circuit.next_counted (counted : circuit.state.generation = circuit.transitions)
    (few : (circuit.next config event).transitions < 2 ^ 64) :
    (circuit.next config event).state.generation = (circuit.next config event).transitions := by
  cases was : circuit.state <;> grind [next, wrappingSucc]

/-- A permit issued comes to the permits held and a permit consumed leaves them. -/
theorem Circuit.next_live (permit : CircuitPermit) :
    (circuit.next config event).live.count permit =
      (event.apply config circuit.state).2.toList.count permit +
        (circuit.live.count permit - event.permit?.toList.count permit) := by
  rw [next, count_append, count_diff]

theorem Accounts.counts (accounts : Accounts config events circuit)
    (positive : 1 ≤ config.halfOpenMaxRequests)
    (few : (circuit.next config event).transitions < 2 ^ 64)
    (next : (circuit.next config event).state = .halfOpen generation inFlight successes) :
    Counts config (events ++ [event]) (circuit.next config event).live generation inFlight
      successes := by
  have live := @Circuit.next_live config circuit event ⟨generation, .halfOpen⟩
  cases was : circuit.state with
  | closed => grind [Circuit.next]
  | open_ before until_ =>
    -- Nothing yet is of a new generation.
    have fresh : circuit.transitions < generation := by
      grind [Circuit.next_counted, Circuit.next, wrappingSucc, accounts.counted]
    have issued := accounts.issued ⟨generation, .halfOpen⟩
    constructor <;> grind [Circuit.next]
  | halfOpen before started earlier =>
    obtain ⟨held, bounded, succeeded, unfailed⟩ := accounts.halfOpen _ _ _ was
    constructor <;> grind [Circuit.next]

theorem Accounts.failures_le (accounts : Accounts config events circuit)
    (next : (circuit.next config event).state = .closed generation failures window) :
    failures ≤ failuresSince generation (events ++ [event]) := by
  cases was : circuit.state with
  | closed before earlier started =>
    have counts := accounts.closed _ _ _ was
    grind [Circuit.next, failuresSince_failure, failuresSince_le]
  | open_ | halfOpen => grind [Circuit.next]

theorem Accounts.next (accounts : Accounts config events circuit)
    (positive : 1 ≤ config.halfOpenMaxRequests)
    (holds : ∀ permit, event.permit? = some permit → permit ∈ circuit.live)
    (few : (circuit.next config event).transitions < 2 ^ 64) :
    Accounts config (events ++ [event]) (circuit.next config event) := by
  have counted := circuit.next_counted accounts.counted few
  have grows : circuit.transitions ≤ (circuit.next config event).transitions :=
    Nat.le_add_right ..
  refine ⟨counted, fun permit listed => ?_, fun _ _ _ => accounts.failures_le,
    fun _ _ _ => accounts.counts positive few⟩
  by_cases new : (event.apply config circuit.state).2 = some permit
  · rw [← counted]
    exact (CircuitEvent.apply_issued new).le
  · refine (accounts.issued permit ?_).trans grows
    have kept := (diff_sublist circuit.live event.permit?.toList).subset
    grind [Circuit.next]

namespace Circuit

theorem step_eq_some : circuit.step config event = some after ↔
    (∀ permit, event.permit? = some permit → permit ∈ circuit.live) ∧
      circuit.next config event = after :=
  Option.ite_none_right_eq_some.trans (and_congr_right' Option.some_inj)

variable (positive : 1 ≤ config.halfOpenMaxRequests) (ran : run config events = some circuit)
  (few : circuit.transitions < 2 ^ 64)

include positive ran few

theorem run_accounts : Accounts config events circuit := by
  induction events using reverseRecOn generalizing circuit with
  | nil =>
    obtain rfl := Option.some.inj ran
    constructor <;> grind
  | append_singleton events event ih =>
    simp only [run, foldlM_append, foldlM_cons, foldlM_nil, bind_pure, Option.bind_eq_bind,
      Option.bind_eq_some_iff] at ran
    obtain ⟨before, ran, stepped⟩ := ran
    obtain ⟨holds, rfl⟩ := step_eq_some.mp stepped
    exact (ih ran ((Nat.le_add_right ..).trans_lt few)).next positive holds few

/-- In every interleaving a half-open circuit counts exactly the permits of its generation that
are held, at most as many as configured, and successes that happened. A permit of an earlier
generation changes nothing, and an open circuit issues none before its deadline. -/
theorem run_permits :
    (∀ generation inFlight successes, circuit.state = .halfOpen generation inFlight successes →
      Counts config events circuit.live generation inFlight successes) ∧
    (∀ event after permit, circuit.step config event = some after → event.permit? = some permit →
      permit.generation ≤ circuit.state.generation ∧
        (permit.generation < circuit.state.generation → after.state = circuit.state)) ∧
    ∀ now generation until_, circuit.state = .open_ generation until_ → now < until_ →
      circuit.step config (.acquire now) = some circuit := by
  have accounts := run_accounts positive ran few
  refine ⟨accounts.halfOpen, ?_, ?_⟩
  · intro event after permit stepped consumed
    obtain ⟨holds, rfl⟩ := step_eq_some.mp stepped
    refine ⟨?_, fun stale => congrArg Prod.fst (CircuitEvent.apply_stale consumed stale.ne)⟩
    exact accounts.counted ▸ accounts.issued permit (mem_append_left _ (holds permit consumed))
  · intro now generation until_ opened early
    refine step_eq_some.mpr ⟨by simp [CircuitEvent.permit?], ?_⟩
    simp [next, CircuitEvent.apply, CircuitState.tryAcquire, CircuitEvent.permit?, opened, early]
    rw [← opened]

/-- In every interleaving a transition needs its evidence: the failures of its threshold in a
row to open, the deadline to try again, one failure to open again, and the successes of its
threshold, none failed, to close. Every other step keeps the state and its generation. -/
theorem run_transitions (stepped : circuit.step config event = some after) :
    Warranted config (events ++ [event]) event circuit.state after.state := by
  have accounts := run_accounts positive ran few
  obtain ⟨-, rfl⟩ := step_eq_some.mp stepped
  unfold next
  cases was : circuit.state with
  | closed generation failures window =>
    have counts := accounts.closed _ _ _ was
    grind [Warranted, failuresSince_failure]
  | open_ generation until_ => grind [Warranted]
  | halfOpen generation inFlight successes =>
    obtain ⟨-, -, succeeded, unfailed⟩ := accounts.halfOpen _ _ _ was
    grind [Warranted]

end Circuit

end Accounts

section Trial

namespace Circuit

def trialConfig : UpstreamCircuitBreakerConfig := ⟨2, 30, 1, 1⟩

/-- Two requests fail, and the first one after the deadline is let through. -/
def trialEvents : List CircuitEvent :=
  [.acquire 0, .acquire 1, .failure ⟨0, .closed⟩ 2, .failure ⟨0, .closed⟩ 3, .acquire 30000003]

theorem trial_ran :
    run trialConfig trialEvents = some ⟨.halfOpen 2 1 0, [⟨2, .halfOpen⟩], 2⟩ := rfl

theorem run_permits_trial :
    [CircuitPermit.mk 2 .halfOpen].count ⟨2, .halfOpen⟩ ≤ trialConfig.halfOpenMaxRequests :=
  ((run_permits (by decide) trial_ran (by decide)).1 2 1 0 rfl).bounded

theorem run_transitions_trial :
    Warranted trialConfig (trialEvents ++ [.success ⟨2, .halfOpen⟩]) (.success ⟨2, .halfOpen⟩)
      (.halfOpen 2 1 0) (.closed 3 0 none) :=
  run_transitions (by decide) trial_ran (by decide)
    (rfl : Circuit.step _ _ _ = some ⟨.closed 3 0 none, [], 3⟩)

end Circuit

end Trial

end GreenGateway.Proxy
