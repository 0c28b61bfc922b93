import Mathlib.Algebra.Order.Ring.Rat

/-!
# The circuit breaker

`gateway/circuit_breaker.py`.  Every method of the class runs under the
breaker's lock, so each is one pure function of the breaker and of the one clock
reading it may take.  The clock is exact: readings are rationals.

A configuration is taken as it is given, and so nothing stops it from admitting no
trial at all; results that need a positive bound say so.

Each operation is followed by the lemma that says everything the operation can
do; the modules on runs of the breaker use these and unfold nothing.
-/
namespace EventLedger

/-- `CircuitState`. -/
inductive CircuitState where
  | closed
  | opened
  | halfOpen
  deriving DecidableEq

/-- The four constructor parameters of `CircuitBreaker`, with their defaults. -/
structure BreakerConfig where
  failureThreshold : ℕ := 5
  recoveryTimeout : ℚ := 10
  halfOpenMaxCalls : ℕ := 1
  successThreshold : ℕ := 1
  deriving DecidableEq

/-- The breaker's fields, with the values `__init__` gives them. -/
structure CircuitBreaker where
  state : CircuitState := .closed
  failures : ℕ := 0
  successes : ℕ := 0
  halfOpenCalls : ℕ := 0
  openedAt : ℚ := 0
  deriving DecidableEq

namespace CircuitBreaker
variable (cfg : BreakerConfig) (clock : ℚ) (b : CircuitBreaker)

/-- `_transition_to`: every counter is reset, and entering OPEN arms the cooldown. -/
def transitionTo (state : CircuitState) : CircuitBreaker where
  state := state
  failures := 0
  successes := 0
  halfOpenCalls := 0
  openedAt := if state = .opened then clock else b.openedAt

/-- The second half of `allow_request`: in HALF_OPEN a trial slot is taken, if
one is left; in CLOSED the request is let through. -/
def takeSlot : Bool × CircuitBreaker :=
  if b.state = .halfOpen then
    if b.halfOpenCalls ≥ cfg.halfOpenMaxCalls then
      (false, b)
    else
      (true, { b with halfOpenCalls := b.halfOpenCalls + 1 })
  else
    (true, b)

/-- `allow_request`. -/
def allowRequest : Bool × CircuitBreaker :=
  if b.state = .opened then
    if clock - b.openedAt ≥ cfg.recoveryTimeout then
      -- Cooldown elapsed: allow a trial request.
      takeSlot cfg (b.transitionTo clock .halfOpen)
    else
      (false, b)
  else
    takeSlot cfg b

/-- `record_success`. -/
def recordSuccess : CircuitBreaker :=
  if b.state = .halfOpen then
    let b' := { b with successes := b.successes + 1 }
    if b'.successes ≥ cfg.successThreshold then b'.transitionTo clock .closed else b'
  else
    { b with failures := 0 }

/-- `record_failure`. -/
def recordFailure : CircuitBreaker :=
  if b.state = .halfOpen then
    -- A trial failed: trip immediately back to OPEN.
    b.transitionTo clock .opened
  else
    let b' := { b with failures := b.failures + 1 }
    if b'.failures ≥ cfg.failureThreshold then b'.transitionTo clock .opened else b'

/-! ## What each operation can do -/

variable {cfg}

/-- **Everything `allow_request` can do**, case by case.  With at least one trial
slot per episode the cooled-down OPEN breaker always admits. -/
theorem allowRequest_cases (clock : ℚ) (b : CircuitBreaker) (hmax : 1 ≤ cfg.halfOpenMaxCalls) :
    (b.state = .closed ∧ b.allowRequest cfg clock = (true, b)) ∨
    (b.state = .opened ∧ clock - b.openedAt < cfg.recoveryTimeout ∧
      b.allowRequest cfg clock = (false, b)) ∨
    (b.state = .opened ∧ cfg.recoveryTimeout ≤ clock - b.openedAt ∧
      b.allowRequest cfg clock = (true, ⟨.halfOpen, 0, 0, 1, b.openedAt⟩)) ∨
    (b.state = .halfOpen ∧ cfg.halfOpenMaxCalls ≤ b.halfOpenCalls ∧
      b.allowRequest cfg clock = (false, b)) ∨
    (b.state = .halfOpen ∧ b.halfOpenCalls < cfg.halfOpenMaxCalls ∧
      b.allowRequest cfg clock = (true, { b with halfOpenCalls := b.halfOpenCalls + 1 })) := by
  unfold allowRequest takeSlot
  cases hs : b.state with
  | closed => simp
  | opened =>
    by_cases hc : clock - b.openedAt ≥ cfg.recoveryTimeout
    · have hne : ¬ cfg.halfOpenMaxCalls = 0 := by omega
      simp [hc, transitionTo, hne]
    · simp [hc, not_le.mp hc]
  | halfOpen =>
    by_cases hm : b.halfOpenCalls ≥ cfg.halfOpenMaxCalls
    · simp [hm]
    · simp [hm, not_le.mp hm]

/-- What `allow_request` can leave behind, with any number of trial slots. -/
theorem allowRequest_breaker_cases (cfg : BreakerConfig) (clock : ℚ) (b : CircuitBreaker) :
    (b.allowRequest cfg clock).2 = b ∨
    (b.state = .halfOpen ∧ b.halfOpenCalls < cfg.halfOpenMaxCalls ∧
      (b.allowRequest cfg clock).2 = { b with halfOpenCalls := b.halfOpenCalls + 1 }) ∨
    (b.state = .opened ∧ ∃ n, n ≤ cfg.halfOpenMaxCalls ∧
      (b.allowRequest cfg clock).2 = ⟨.halfOpen, 0, 0, n, b.openedAt⟩) := by
  unfold allowRequest takeSlot
  cases hs : b.state with
  | closed => simp
  | opened =>
    by_cases hc : clock - b.openedAt ≥ cfg.recoveryTimeout
    · by_cases hm : cfg.halfOpenMaxCalls = 0
      · simp [hc, transitionTo, hm]
      · have hone : 1 ≤ cfg.halfOpenMaxCalls := Nat.one_le_iff_ne_zero.mpr hm
        simp [hc, transitionTo, hm, hone]
    · simp [hc]
  | halfOpen =>
    by_cases hm : b.halfOpenCalls ≥ cfg.halfOpenMaxCalls
    · simp [hm]
    · simp [hm, not_le.mp hm]

/-- **Everything `record_success` can do.** -/
theorem recordSuccess_cases (cfg : BreakerConfig) (clock : ℚ) (b : CircuitBreaker) :
    (b.state ≠ .halfOpen ∧ b.recordSuccess cfg clock = { b with failures := 0 }) ∨
    (b.state = .halfOpen ∧ b.successes + 1 < cfg.successThreshold ∧
      b.recordSuccess cfg clock = { b with successes := b.successes + 1 }) ∨
    (b.state = .halfOpen ∧ cfg.successThreshold ≤ b.successes + 1 ∧
      b.recordSuccess cfg clock = ⟨.closed, 0, 0, 0, b.openedAt⟩) := by
  unfold recordSuccess
  by_cases hs : b.state = .halfOpen
  · by_cases ht : b.successes + 1 ≥ cfg.successThreshold
    · simp [hs, ht, transitionTo]
    · simp [hs, ht, not_le.mp ht]
  · simp [hs]

/-- **Everything `record_failure` can do.** -/
theorem recordFailure_cases (cfg : BreakerConfig) (clock : ℚ) (b : CircuitBreaker) :
    (b.state = .halfOpen ∧ b.recordFailure cfg clock = ⟨.opened, 0, 0, 0, clock⟩) ∨
    (b.state ≠ .halfOpen ∧ b.failures + 1 < cfg.failureThreshold ∧
      b.recordFailure cfg clock = { b with failures := b.failures + 1 }) ∨
    (b.state ≠ .halfOpen ∧ cfg.failureThreshold ≤ b.failures + 1 ∧
      b.recordFailure cfg clock = ⟨.opened, 0, 0, 0, clock⟩) := by
  unfold recordFailure
  by_cases hs : b.state = .halfOpen
  · simp [hs, transitionTo]
  · by_cases ht : b.failures + 1 ≥ cfg.failureThreshold
    · simp [hs, ht, transitionTo]
    · simp [hs, ht, not_le.mp ht]

end CircuitBreaker
end EventLedger
