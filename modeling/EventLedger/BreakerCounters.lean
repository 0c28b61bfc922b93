import EventLedger.CircuitBreaker
import EventLedger.LabelledRun

/-!
# What the breaker's counters count

Any operations in any order, with a clock that does not go back: callers need not
follow the protocol of `_call`.  The three states share three counters, so what a
counter means depends on the state, and on the history since the state was
entered.

In CLOSED the failure counter is the streak of failures that the history ends in
(`Counts`).  A streak is broken by a success and by entering CLOSED.  Failures and
successes recorded while OPEN move the same counter, but every way from OPEN back
to CLOSED resets it.
-/
namespace EventLedger
namespace BreakerCounters
open LabelledRun

/-- An operation on the breaker. -/
inductive Op where
  | allow
  | success
  | failure
  deriving DecidableEq

/-- An operation that was performed, and the states it led between. -/
structure Moment where
  op : Op
  before : CircuitState
  after : CircuitState
  deriving DecidableEq

/-- The breaker, the latest clock reading, and all operations so far, the most recent first. -/
structure State where
  breaker : CircuitBreaker
  clock : ℚ
  history : List Moment
  deriving DecidableEq

/-- A fresh breaker. -/
def initial (start : ℚ) : State := ⟨{}, start, []⟩

/-- The breaker after the operation. -/
def Op.apply (cfg : BreakerConfig) (clock : ℚ) (b : CircuitBreaker) : Op → CircuitBreaker
  | .allow => (b.allowRequest cfg clock).2
  | .success => b.recordSuccess cfg clock
  | .failure => b.recordFailure cfg clock

/-- An operation at a clock reading that is not before the latest one. -/
def step (cfg : BreakerConfig) (s : State) (l : ℚ × Op) : Option State :=
  if s.clock ≤ l.1 then
    let b := l.2.apply cfg l.1 s.breaker
    some ⟨b, l.1, ⟨l.2, s.breaker.state, b.state⟩ :: s.history⟩
  else none

/-- The operation breaks a streak: a success, or an entry into CLOSED. -/
def Moment.Breaks (m : Moment) : Prop :=
  m.op = .success ∨ (m.before ≠ .closed ∧ m.after = .closed)

instance (m : Moment) : Decidable m.Breaks :=
  inferInstanceAs (Decidable (_ = _ ∨ (_ ≠ _ ∧ _ = _)))

/-- How many failures have been recorded since a streak was last broken. -/
def streak (history : List Moment) : ℕ :=
  (history.takeWhile fun m => ¬ m.Breaks).countP fun m => m.op = .failure

theorem streak_cons_of_breaks {m : Moment} (h : m.Breaks) (history : List Moment) :
    streak (m :: history) = 0 := by
  simp [streak, h]

theorem streak_cons_failure {m : Moment} (hop : m.op = .failure) (h : ¬ m.Breaks)
    (history : List Moment) : streak (m :: history) = streak history + 1 := by
  simp [streak, h, hop]

theorem streak_cons_allow {m : Moment} (hop : m.op = .allow) (h : ¬ m.Breaks)
    (history : List Moment) : streak (m :: history) = streak history := by
  simp [streak, h, hop]

/-! ## The invariant -/

variable {cfg : BreakerConfig} {s t : State} {l : ℚ × Op}

/-- What the counters count. -/
structure Counts (cfg : BreakerConfig) (s : State) : Prop where
  closed : s.breaker.state = .closed →
    s.breaker.failures = streak s.history ∧ s.breaker.failures < cfg.failureThreshold ∧
      s.breaker.successes = 0 ∧ s.breaker.halfOpenCalls = 0
  halfOpen : s.breaker.state = .halfOpen →
    s.breaker.failures = 0 ∧
      (1 ≤ cfg.successThreshold → s.breaker.successes < cfg.successThreshold) ∧
      s.breaker.halfOpenCalls ≤ cfg.halfOpenMaxCalls

/-- CLOSED is left for OPEN exactly at the failure that makes the streak reach the threshold. -/
def TripsAtThreshold (cfg : BreakerConfig) (s : State) (l : ℚ × Op) (t : State) : Prop :=
  s.breaker.state = .closed →
    (t.breaker.state = .opened ↔ l.2 = .failure ∧ streak t.history = cfg.failureThreshold)

theorem counts_initial (hthreshold : 1 ≤ cfg.failureThreshold) (start : ℚ) :
    Counts cfg (initial start) :=
  ⟨fun _ => ⟨rfl, hthreshold, rfl, rfl⟩, fun h => by cases h⟩

/-- The state after an operation on a breaker. -/
def next (s : State) (clock : ℚ) (op : Op) (b : CircuitBreaker) : State :=
  ⟨b, clock, ⟨op, s.breaker.state, b.state⟩ :: s.history⟩

theorem step_eq (h : step cfg s l = some t) :
    s.clock ≤ l.1 ∧ t = next s l.1 l.2 (l.2.apply cfg l.1 s.breaker) := by
  simp only [step] at h
  split at h
  · rename_i hclock
    exact ⟨hclock, (Option.some.inj h).symm⟩
  · cases h

theorem counts_allow (hs : Counts cfg s) (clock : ℚ) :
    Counts cfg (next s clock .allow (s.breaker.allowRequest cfg clock).2) ∧
      (s.breaker.state = .closed → (s.breaker.allowRequest cfg clock).2.state = .closed) := by
  rcases s.breaker.allowRequest_breaker_cases cfg clock with
    hb | ⟨hstate, hlt, hb⟩ | ⟨hstate, n, hn, hb⟩
  · rw [hb]
    refine ⟨⟨fun hclosed => ?_, hs.halfOpen⟩, id⟩
    have hkept : ¬ Moment.Breaks ⟨.allow, s.breaker.state, s.breaker.state⟩ := by
      rintro (h | ⟨h, h'⟩)
      · cases h
      · exact h h'
    simp only [next, streak_cons_allow rfl hkept]
    exact hs.closed hclosed
  · rw [hb]
    obtain ⟨hfailures, hsuccesses, -⟩ := hs.halfOpen hstate
    refine ⟨⟨fun h => ?_, fun _ => ⟨hfailures, hsuccesses, hlt⟩⟩, fun h => h⟩
    cases hstate.symm.trans h
  · rw [hb]
    refine ⟨⟨fun h => (by cases h), fun _ => ⟨rfl, id, hn⟩⟩, fun h => ?_⟩
    cases hstate.symm.trans h

theorem counts_success (hthreshold : 1 ≤ cfg.failureThreshold) (hs : Counts cfg s) (clock : ℚ) :
    Counts cfg (next s clock .success (s.breaker.recordSuccess cfg clock)) ∧
      (s.breaker.state = .closed → (s.breaker.recordSuccess cfg clock).state = .closed) := by
  have hstreak : ∀ b, streak (next s clock .success b).history = 0 := fun b =>
    streak_cons_of_breaks (Or.inl rfl) s.history
  rcases s.breaker.recordSuccess_cases cfg clock with ⟨hne, hb⟩ | ⟨hstate, hlt, hb⟩ | ⟨-, -, hb⟩
  · rw [hb]
    refine ⟨⟨fun hclosed => ?_, fun h => absurd h hne⟩, id⟩
    obtain ⟨-, -, hsuccesses, hcalls⟩ := hs.closed hclosed
    exact ⟨(hstreak _).symm, hthreshold, hsuccesses, hcalls⟩
  · rw [hb]
    obtain ⟨hfailures, -, hcalls⟩ := hs.halfOpen hstate
    refine ⟨⟨fun h => ?_, fun _ => ⟨hfailures, fun _ => hlt, hcalls⟩⟩, fun h => h⟩
    cases hstate.symm.trans h
  · rw [hb]
    exact ⟨⟨fun _ => ⟨(hstreak _).symm, hthreshold, rfl, rfl⟩, fun h => by cases h⟩, fun _ => rfl⟩

/-- A failure in CLOSED adds to the streak, and trips the breaker if it completes it. -/
theorem counts_failure (hs : Counts cfg s) (clock : ℚ) :
    Counts cfg (next s clock .failure (s.breaker.recordFailure cfg clock)) ∧
      (s.breaker.state = .closed → ((s.breaker.recordFailure cfg clock).state = .opened ↔
        streak (next s clock .failure (s.breaker.recordFailure cfg clock)).history =
          cfg.failureThreshold)) := by
  have hstreak : ∀ b : CircuitBreaker, (b.state = .closed → s.breaker.state = .closed) →
      streak (next s clock .failure b).history = streak s.history + 1 := by
    intro b hfrom
    refine streak_cons_failure rfl ?_ s.history
    rintro (h | ⟨h, h'⟩)
    · cases h
    · exact h (hfrom h')
  rcases s.breaker.recordFailure_cases cfg clock with ⟨hstate, hb⟩ | ⟨hne, hlt, hb⟩ | ⟨-, hle, hb⟩
  · rw [hb]
    refine ⟨⟨fun h => (by cases h), fun h => by cases h⟩, fun h => ?_⟩
    cases hstate.symm.trans h
  · rw [hb]
    have hnext := hstreak { s.breaker with failures := s.breaker.failures + 1 } id
    refine ⟨⟨fun hclosed => ?_, fun h => absurd h hne⟩, fun hclosed => ?_⟩
    · obtain ⟨hfailures, -, hsuccesses, hcalls⟩ := hs.closed hclosed
      rw [hnext, ← hfailures]
      exact ⟨rfl, hlt, hsuccesses, hcalls⟩
    · rw [hnext, ← (hs.closed hclosed).1]
      constructor
      · intro h
        cases hclosed.symm.trans h
      · intro h
        exact absurd h hlt.ne
  · rw [hb]
    refine ⟨⟨fun h => (by cases h), fun h => by cases h⟩, fun hclosed => ?_⟩
    obtain ⟨hfailures, hless, -⟩ := hs.closed hclosed
    rw [hstreak _ fun h => (by cases h), ← hfailures]
    exact ⟨fun _ => by omega, fun _ => rfl⟩

/-- One step keeps the invariant, and trips the breaker only at the threshold. -/
theorem counts_step (hthreshold : 1 ≤ cfg.failureThreshold) (hs : Counts cfg s)
    (h : step cfg s l = some t) : Counts cfg t ∧ TripsAtThreshold cfg s l t := by
  obtain ⟨-, rfl⟩ := step_eq h
  obtain ⟨clock, op⟩ := l
  cases op with
  | allow =>
    obtain ⟨hcounts, hstays⟩ := counts_allow hs clock
    refine ⟨hcounts, fun hclosed => ⟨fun hopened => ?_, fun h => by cases h.1⟩⟩
    cases (hstays hclosed).symm.trans hopened
  | success =>
    obtain ⟨hcounts, hstays⟩ := counts_success hthreshold hs clock
    refine ⟨hcounts, fun hclosed => ⟨fun hopened => ?_, fun h => by cases h.1⟩⟩
    cases (hstays hclosed).symm.trans hopened
  | failure =>
    obtain ⟨hcounts, htrips⟩ := counts_failure hs clock
    exact ⟨hcounts, fun hclosed => (htrips hclosed).trans ⟨fun h => ⟨rfl, h⟩, fun h => h.2⟩⟩

/-- **The breaker trips at the threshold-th consecutive failure**, in every run of any operations:
the counters count what they should in every state reached, and CLOSED is left for OPEN exactly at
the failure that makes the streak reach the threshold. -/
theorem breaker_counts (cfg : BreakerConfig) (hthreshold : 1 ≤ cfg.failureThreshold) (start : ℚ)
    (ls : List (ℚ × Op)) (t : State) (h : Run (step cfg) (initial start) ls t) :
    Counts cfg t ∧ Along (step cfg) (TripsAtThreshold cfg) (initial start) ls := by
  refine Along.preserves (I := Counts cfg) (C := fun _ _ _ => True) ?_
    (along_of_labels fun _ _ _ _ => trivial) h (counts_initial hthreshold start)
  intro s l t hs hstep _
  exact counts_step hthreshold hs hstep

/-- A success breaks the streak: with threshold 2 not the second failure trips the breaker but the
third. -/
theorem breaker_counts_broken_streak :
    Counts ⟨2, 10, 1, 1⟩ ⟨⟨.opened, 0, 0, 0, 3⟩, 3,
      [⟨.failure, .closed, .opened⟩, ⟨.failure, .closed, .closed⟩, ⟨.success, .closed, .closed⟩,
        ⟨.failure, .closed, .closed⟩]⟩ ∧
    Along (step ⟨2, 10, 1, 1⟩) (TripsAtThreshold ⟨2, 10, 1, 1⟩) (initial 0)
      [(0, .failure), (1, .success), (2, .failure), (3, .failure)] :=
  breaker_counts ⟨2, 10, 1, 1⟩ (by decide) 0 _ _ (by decide +kernel)

end BreakerCounters
end EventLedger
