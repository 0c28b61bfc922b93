import EventLedger.BreakerCalls

/-!
# Who decides a half-open episode

A HALF_OPEN episode is meant to be decided by its trials: enough of them succeed
and the breaker closes, one of them fails and it reopens.  Since an outcome
carries no identity, a call admitted before the episode (while CLOSED, or as a
trial of an earlier episode) that reports during it counts like a trial.

`OnlyTrialsDecide` is the intended reading of one step.  It holds along every run
in which no such stale outcome is recorded while HALF_OPEN (`OwnOutcomes`).
-/
namespace EventLedger
namespace BreakerCalls
open LabelledRun

variable {cfg : BreakerConfig} {s t : BreakerCalls} {l : BreakerLabel}

/-- A step leaves HALF_OPEN only on its own trials: it closes the breaker at a
success of a trial of the running episode, once `success_threshold` of that
episode's trials have reported success, and it reopens the breaker at a failure
of a trial of the running episode. -/
structure OnlyTrialsDecide (cfg : BreakerConfig) (s : BreakerCalls) (l : BreakerLabel)
    (t : BreakerCalls) : Prop where
  closes : s.breaker.state = .halfOpen → t.breaker.state = .closed →
    cfg.successThreshold ≤ t.trialSuccesses ∧
      ∃ c, l.action = .success c ∧ c.trial = some s.episode
  reopens : s.breaker.state = .halfOpen → t.breaker.state = .opened →
    ∃ c, l.action = .failure c ∧ c.trial = some s.episode

/-- While HALF_OPEN, only trials of the running episode report. -/
def OwnOutcomes (s : BreakerCalls) (l : BreakerLabel) (_ : BreakerCalls) : Prop :=
  s.breaker.state = .halfOpen → ∀ c ∈ l.action.reporter, c.trial = some s.episode

instance (s : BreakerCalls) (l : BreakerLabel) (t : BreakerCalls) :
    Decidable (OwnOutcomes s l t) :=
  inferInstanceAs (Decidable (_ = _ → ∀ c ∈ l.action.reporter, c.trial = some s.episode))

/-- In HALF_OPEN the breaker's success counter counts the running episode's
trials and nothing else. -/
def CountsTrials (s : BreakerCalls) : Prop :=
  s.breaker.state = .halfOpen → s.breaker.successes = s.trialSuccesses

theorem countsTrials_initial (start : ℚ) : CountsTrials (initial start) := by
  intro h
  simp [initial] at h

theorem onlyTrialsDecide_allow (hmax : 1 ≤ cfg.halfOpenMaxCalls) (hs : CountsTrials s)
    (clock : ℚ) :
    CountsTrials (s.allow cfg clock) ∧ OnlyTrialsDecide cfg s l (s.allow cfg clock) := by
  rcases allow_cases clock s hmax with ⟨hst, he⟩ | ⟨hst, -, he⟩ | ⟨hst, -, he⟩ | ⟨hst, he⟩
  · rw [he]
    exact ⟨hs, fun h => by simp [hst] at h, fun h => by simp [hst] at h⟩
  · rw [he]
    exact ⟨fun _ => rfl, fun h => by simp [hst] at h, fun h => by simp [hst] at h⟩
  · rw [he]
    exact ⟨hs, fun _ h => by simp [hst] at h, fun _ h => by simp [hst] at h⟩
  · rw [he]
    exact ⟨hs, fun h h' => by simp [h] at h', fun h h' => by simp [h] at h'⟩

theorem onlyTrialsDecide_success {clock : ℚ} {c : Call} (hs : CountsTrials s)
    (hl : l.action = .success c) (hown : s.breaker.state = .halfOpen → c.trial = some s.episode) :
    CountsTrials (s.success cfg clock c) ∧ OnlyTrialsDecide cfg s l (s.success cfg clock c) := by
  rcases CircuitBreaker.recordSuccess_cases cfg clock s.breaker with
    ⟨hst, he⟩ | ⟨hst, -, he⟩ | ⟨hst, hge, he⟩
  · refine ⟨fun h => ?_, fun h => absurd h hst, fun h => absurd h hst⟩
    exact absurd (by simpa [success, he] using h) hst
  · refine ⟨fun _ => ?_, fun _ h => ?_, fun _ h => ?_⟩
    · simp [success, he, hown hst, hs hst]
    · simp [success, he, hst] at h
    · simp [success, he, hst] at h
  · refine ⟨fun h => ?_, fun _ _ => ⟨?_, c, hl, hown hst⟩, fun _ h => ?_⟩
    · simp [success, he] at h
    · rw [hs hst] at hge
      simpa [success, hown hst] using hge
    · simp [success, he] at h

theorem onlyTrialsDecide_failure {clock : ℚ} {c : Call} (hl : l.action = .failure c)
    (hown : s.breaker.state = .halfOpen → c.trial = some s.episode) :
    CountsTrials (s.failure cfg clock c) ∧ OnlyTrialsDecide cfg s l (s.failure cfg clock c) := by
  rcases CircuitBreaker.recordFailure_cases cfg clock s.breaker with
    ⟨hst, he⟩ | ⟨hst, -, he⟩ | ⟨hst, -, he⟩
  · refine ⟨fun h => ?_, fun _ h => ?_, fun _ _ => ⟨c, hl, hown hst⟩⟩
    · simp [failure, he] at h
    · simp [failure, he] at h
  · refine ⟨fun h => ?_, fun h => absurd h hst, fun h => absurd h hst⟩
    exact absurd (by simpa [failure, he] using h) hst
  · refine ⟨fun h => ?_, fun h => absurd h hst, fun h => absurd h hst⟩
    simp [failure, he] at h

/-- **Runs without stale outcomes in HALF_OPEN are decided by trials alone**: for
every interleaving of calls in which, while the breaker is HALF_OPEN, only trials
of the running episode report, every step that leaves HALF_OPEN does so on the
running episode's trials. -/
theorem only_trials_decide (cfg : BreakerConfig) (hmax : 1 ≤ cfg.halfOpenMaxCalls)
    {start : ℚ} {ls : List BreakerLabel} {t : BreakerCalls}
    (h : Run (step cfg) (initial start) ls t)
    (hown : Along (step cfg) OwnOutcomes (initial start) ls) :
    Along (step cfg) (OnlyTrialsDecide cfg) (initial start) ls := by
  refine (hown.preserves (I := CountsTrials) ?_ h (countsTrials_initial start)).2
  intro s l t hs hst hC
  obtain ⟨-, ⟨-, rfl⟩ | ⟨c, hl, -, rfl⟩ | ⟨c, hl, -, rfl⟩⟩ := step_cases hst
  · exact onlyTrialsDecide_allow hmax hs _
  · exact onlyTrialsDecide_success hs hl (fun hh => hC hh c (by simp [hl, BreakerAction.reporter]))
  · exact onlyTrialsDecide_failure hl (fun hh => hC hh c (by simp [hl, BreakerAction.reporter]))

/-- A trip, a cooldown, and the trial that closes the breaker again. -/
theorem only_trials_decide_recovery :
    Along (step ⟨1, 1, 1, 1⟩) (OnlyTrialsDecide ⟨1, 1, 1, 1⟩) (initial 0)
      [⟨0, .allow⟩, ⟨0, .failure ⟨0, none⟩⟩, ⟨1, .allow⟩, ⟨1, .success ⟨1, some 1⟩⟩] := by
  have h : Run (step ⟨1, 1, 1, 1⟩) (initial 0)
      [⟨0, .allow⟩, ⟨0, .failure ⟨0, none⟩⟩, ⟨1, .allow⟩, ⟨1, .success ⟨1, some 1⟩⟩]
      ⟨⟨.closed, 0, 0, 0, 0⟩, 1, [⟨0, none⟩, ⟨1, some 1⟩], [], 1, 1⟩ := by decide +kernel
  exact only_trials_decide ⟨1, 1, 1, 1⟩ (by decide) h (by decide +kernel)

/-- **A stale success closes the breaker.**  Calls 0 and 1 are admitted at 0, call
0 fails and trips the breaker, call 2 is the trial admitted at 1.  The trial has
not reported, but the success of call 1, admitted while CLOSED, closes the
breaker: no trial of the episode has succeeded. -/
theorem stale_success_closes :
    ∃ s t, Run (step ⟨1, 1, 1, 1⟩) (initial 0)
        [⟨0, .allow⟩, ⟨0, .allow⟩, ⟨0, .failure ⟨0, none⟩⟩, ⟨1, .allow⟩] s ∧
      step ⟨1, 1, 1, 1⟩ s ⟨1, .success ⟨1, none⟩⟩ = some t ∧
      ¬ OnlyTrialsDecide ⟨1, 1, 1, 1⟩ s ⟨1, .success ⟨1, none⟩⟩ t := by
  refine ⟨⟨⟨.halfOpen, 0, 0, 1, 0⟩, 1, [⟨0, none⟩, ⟨1, none⟩, ⟨2, some 1⟩],
      [⟨1, none⟩, ⟨2, some 1⟩], 1, 0⟩,
    ⟨⟨.closed, 0, 0, 0, 0⟩, 1, [⟨0, none⟩, ⟨1, none⟩, ⟨2, some 1⟩], [⟨2, some 1⟩], 1, 0⟩,
    ?_, ?_, ?_⟩
  · decide +kernel
  · decide +kernel
  · intro h
    have := (h.closes rfl rfl).1
    simp at this

/-- The condition leaves out nothing harmless: whenever a call that is not a trial
of the running episode is pending in HALF_OPEN, its failure reopens the breaker. -/
theorem stale_failure_reopens {c : Call} (hs : s.breaker.state = .halfOpen)
    (hc : c ∈ s.pending) (hstale : c.trial ≠ some s.episode) :
    ∃ t, step cfg s ⟨s.clock, .failure c⟩ = some t ∧ t.breaker.state = .opened ∧
      ¬ OnlyTrialsDecide cfg s ⟨s.clock, .failure c⟩ t := by
  have hopen : (s.failure cfg s.clock c).breaker.state = .opened := by
    rcases CircuitBreaker.recordFailure_cases cfg s.clock s.breaker with
      ⟨-, he⟩ | ⟨h, -⟩ | ⟨h, -⟩
    · simp [failure, he]
    · exact absurd hs h
    · exact absurd hs h
  refine ⟨_, step_failure (le_refl _) hc, hopen, fun h => ?_⟩
  obtain ⟨c', hc', hown⟩ := h.reopens hs hopen
  cases hc'
  exact hstale hown

end BreakerCalls
end EventLedger
