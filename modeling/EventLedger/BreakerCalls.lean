import EventLedger.CircuitBreaker
import EventLedger.LabelledRun

/-!
# Calls through the breaker

The breaker does not know which call an outcome belongs to: `record_success` and
`record_failure` carry no argument.  `AccountClient._call` runs them on many
threads at once, so between a call's `allow_request` and its outcome any number
of other calls may be admitted, may report, and time may pass.

`BreakerCalls` is the breaker together with the calls driving it.  A call that
`allow_request` admits is *pending* until it reports exactly one outcome; a call
admitted in HALF_OPEN is a *trial*, and carries the number of the HALF_OPEN
episode that admitted it.  The last four fields are history: the breaker never
reads them, they only let a statement speak about who reported what.
-/
namespace EventLedger

/-- A call that `allow_request` let through: its number and, for a trial, the
HALF_OPEN episode that admitted it. -/
structure Call where
  id : ℕ
  trial : Option ℕ
  deriving DecidableEq

/-- One operation on the breaker. -/
inductive BreakerAction where
  | allow
  | success (c : Call)
  | failure (c : Call)
  deriving DecidableEq

/-- The call whose outcome the operation records. -/
def BreakerAction.reporter : BreakerAction → Option Call
  | .allow => none
  | .success c => some c
  | .failure c => some c

/-- One operation together with the clock at which it runs. -/
structure BreakerLabel where
  clock : ℚ
  action : BreakerAction
  deriving DecidableEq

/-- The breaker, the latest clock reading, and the calls driving it. -/
structure BreakerCalls where
  breaker : CircuitBreaker
  clock : ℚ
  /-- Every call admitted so far, in order. -/
  admitted : List Call
  /-- The admitted calls that have not reported yet. -/
  pending : List Call
  /-- How many HALF_OPEN episodes have started. -/
  episode : ℕ
  /-- The successes its own trials have reported in the latest episode. -/
  trialSuccesses : ℕ
  deriving DecidableEq

namespace BreakerCalls
open LabelledRun

/-- A fresh breaker, before any call, at clock reading `start`. -/
def initial (start : ℚ) : BreakerCalls := ⟨{}, start, [], [], 0, 0⟩

/-- `allow_request` at clock reading `clock`. -/
def allow (cfg : BreakerConfig) (clock : ℚ) (s : BreakerCalls) : BreakerCalls :=
  let (ok, b) := s.breaker.allowRequest cfg clock
  let fresh := decide (s.breaker.state ≠ .halfOpen ∧ b.state = .halfOpen)
  let episode := if fresh then s.episode + 1 else s.episode
  let calls := if ok then
    [⟨s.admitted.length, if b.state = .halfOpen then some episode else none⟩] else []
  { breaker := b
    clock := clock
    admitted := s.admitted ++ calls
    pending := s.pending ++ calls
    episode := episode
    trialSuccesses := if fresh then 0 else s.trialSuccesses }

/-- Call `c` reports a success. -/
def success (cfg : BreakerConfig) (clock : ℚ) (c : Call) (s : BreakerCalls) : BreakerCalls :=
  { s with
    breaker := s.breaker.recordSuccess cfg clock
    clock := clock
    pending := s.pending.erase c
    trialSuccesses :=
      if c.trial = some s.episode then s.trialSuccesses + 1 else s.trialSuccesses }

/-- Call `c` reports a failure. -/
def failure (cfg : BreakerConfig) (clock : ℚ) (c : Call) (s : BreakerCalls) : BreakerCalls :=
  { s with
    breaker := s.breaker.recordFailure cfg clock
    clock := clock
    pending := s.pending.erase c }

/-- One step of the calls: the clock never goes back, and only a pending call
reports. -/
def step (cfg : BreakerConfig) (s : BreakerCalls) (l : BreakerLabel) : Option BreakerCalls :=
  if l.clock < s.clock then
    none
  else
    match l.action with
    | .allow => some (s.allow cfg l.clock)
    | .success c => if c ∈ s.pending then some (s.success cfg l.clock c) else none
    | .failure c => if c ∈ s.pending then some (s.failure cfg l.clock c) else none

variable {cfg : BreakerConfig} {s t : BreakerCalls} {l : BreakerLabel}

/-- **Everything a step can be.** -/
theorem step_cases (h : step cfg s l = some t) :
    s.clock ≤ l.clock ∧
    ((l.action = .allow ∧ t = s.allow cfg l.clock) ∨
     (∃ c, l.action = .success c ∧ c ∈ s.pending ∧ t = s.success cfg l.clock c) ∨
     (∃ c, l.action = .failure c ∧ c ∈ s.pending ∧ t = s.failure cfg l.clock c)) := by
  unfold step at h
  split at h
  · cases h
  · rename_i hclock
    refine ⟨not_lt.mp hclock, ?_⟩
    cases ha : l.action with
    | allow =>
      rw [ha] at h
      exact Or.inl ⟨rfl, (Option.some.inj h).symm⟩
    | success c =>
      rw [ha] at h
      by_cases hc : c ∈ s.pending
      · simp only [hc, if_true, Option.some.injEq] at h
        exact Or.inr (Or.inl ⟨c, rfl, hc, h.symm⟩)
      · simp [hc] at h
    | failure c =>
      rw [ha] at h
      by_cases hc : c ∈ s.pending
      · simp only [hc, if_true, Option.some.injEq] at h
        exact Or.inr (Or.inr ⟨c, rfl, hc, h.symm⟩)
      · simp [hc] at h

/-- A label executes when the clock has not gone back and an outcome's call is
pending. -/
theorem step_allow {clock : ℚ} (h : s.clock ≤ clock) :
    step cfg s ⟨clock, .allow⟩ = some (s.allow cfg clock) := by
  simp [step, not_lt.mpr h]

theorem step_success {clock : ℚ} {c : Call} (h : s.clock ≤ clock) (hc : c ∈ s.pending) :
    step cfg s ⟨clock, .success c⟩ = some (s.success cfg clock c) := by
  simp [step, not_lt.mpr h, hc]

theorem step_failure {clock : ℚ} {c : Call} (h : s.clock ≤ clock) (hc : c ∈ s.pending) :
    step cfg s ⟨clock, .failure c⟩ = some (s.failure cfg clock c) := by
  simp [step, not_lt.mpr h, hc]

theorem step_clock (h : step cfg s l = some t) : t.clock = l.clock ∧ s.clock ≤ l.clock := by
  obtain ⟨hle, ⟨-, rfl⟩ | ⟨c, -, -, rfl⟩ | ⟨c, -, -, rfl⟩⟩ := step_cases h
  · exact ⟨rfl, hle⟩
  · exact ⟨rfl, hle⟩
  · exact ⟨rfl, hle⟩

/-! ## What `allow_request` does to the calls -/

/-- **Everything an `allow` step can do**: a CLOSED breaker admits an ordinary
call; a cooled-down OPEN breaker starts a new episode with one trial; a
HALF_OPEN breaker with a slot left admits one more trial of the running episode;
otherwise the request is refused and nothing but the clock moves. -/
theorem allow_cases (clock : ℚ) (s : BreakerCalls) (hmax : 1 ≤ cfg.halfOpenMaxCalls) :
    (s.breaker.state = .closed ∧ s.allow cfg clock =
      { s with clock := clock
               admitted := s.admitted ++ [⟨s.admitted.length, none⟩]
               pending := s.pending ++ [⟨s.admitted.length, none⟩] }) ∨
    (s.breaker.state = .opened ∧ cfg.recoveryTimeout ≤ clock - s.breaker.openedAt ∧
      s.allow cfg clock =
        ⟨⟨.halfOpen, 0, 0, 1, s.breaker.openedAt⟩, clock,
          s.admitted ++ [⟨s.admitted.length, some (s.episode + 1)⟩],
          s.pending ++ [⟨s.admitted.length, some (s.episode + 1)⟩], s.episode + 1, 0⟩) ∨
    (s.breaker.state = .halfOpen ∧ s.breaker.halfOpenCalls < cfg.halfOpenMaxCalls ∧
      s.allow cfg clock =
        { s with breaker := { s.breaker with halfOpenCalls := s.breaker.halfOpenCalls + 1 }
                 clock := clock
                 admitted := s.admitted ++ [⟨s.admitted.length, some s.episode⟩]
                 pending := s.pending ++ [⟨s.admitted.length, some s.episode⟩] }) ∨
    (((s.breaker.state = .opened ∧ clock - s.breaker.openedAt < cfg.recoveryTimeout) ∨
        (s.breaker.state = .halfOpen ∧ cfg.halfOpenMaxCalls ≤ s.breaker.halfOpenCalls)) ∧
      s.allow cfg clock = { s with clock := clock }) := by
  rcases CircuitBreaker.allowRequest_cases clock s.breaker hmax with
    ⟨hs, he⟩ | ⟨hs, hc, he⟩ | ⟨hs, hc, he⟩ | ⟨hs, hc, he⟩ | ⟨hs, hc, he⟩
  · exact Or.inl ⟨hs, by simp [allow, he, hs]⟩
  · exact Or.inr (Or.inr (Or.inr ⟨Or.inl ⟨hs, hc⟩, by simp [allow, he, hs]⟩))
  · exact Or.inr (Or.inl ⟨hs, hc, by simp [allow, he, hs]⟩)
  · exact Or.inr (Or.inr (Or.inr ⟨Or.inr ⟨hs, hc⟩, by simp [allow, he, hs]⟩))
  · exact Or.inr (Or.inr (Or.inl ⟨hs, hc, by simp [allow, he, hs]⟩))

end BreakerCalls
end EventLedger
