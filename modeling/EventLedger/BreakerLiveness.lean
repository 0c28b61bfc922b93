import EventLedger.BreakerCalls
import Mathlib.Tactic.Linarith

/-!
# When the breaker can recover

A breaker is wedged when every call it admitted has reported and it still refuses
all requests for ever.  CLOSED never refuses and OPEN stops refusing once the
cooldown is over, so only HALF_OPEN can wedge: it has no timeout of its own, and
`half_open_calls` counts the slots taken but never gives one back.

The invariant is that in HALF_OPEN every slot taken is accounted for by a
recorded success or by a call still pending (`Accounted`).  With nothing pending
the slots taken are at most the successes, which stay below `success_threshold`;
so a breaker whose `success_threshold` is at most its `half_open_max_calls` never
wedges, and `wedged_of_few_slots` drives every other breaker into a wedge.
-/
namespace EventLedger
namespace BreakerCalls
open LabelledRun

variable {cfg : BreakerConfig} {s t : BreakerCalls}

/-- In HALF_OPEN, the slots taken are covered by successes and pending calls, and
the successes have not closed the breaker yet. -/
structure Accounted (cfg : BreakerConfig) (s : BreakerCalls) : Prop where
  slots : s.breaker.state = .halfOpen →
    s.breaker.halfOpenCalls ≤ s.breaker.successes + s.pending.length
  below : s.breaker.state = .halfOpen → s.breaker.successes < cfg.successThreshold

theorem accounted_of_not_halfOpen (h : s.breaker.state ≠ .halfOpen) : Accounted cfg s :=
  ⟨fun hs => absurd hs h, fun hs => absurd hs h⟩

theorem accounted_initial (start : ℚ) : Accounted cfg (initial start) :=
  accounted_of_not_halfOpen (by simp [initial])

theorem accounted_allow (hmax : 1 ≤ cfg.halfOpenMaxCalls) (hsucc : 1 ≤ cfg.successThreshold)
    (clock : ℚ) (hs : Accounted cfg s) : Accounted cfg (s.allow cfg clock) := by
  rcases allow_cases clock s hmax with ⟨hst, he⟩ | ⟨hst, -, he⟩ | ⟨hst, -, he⟩ | ⟨-, he⟩
  · rw [he]
    exact accounted_of_not_halfOpen (by simp [hst])
  · rw [he]
    exact ⟨fun _ => by simp, fun _ => hsucc⟩
  · rw [he]
    have hslots := hs.slots hst
    refine ⟨fun _ => ?_, hs.below⟩
    simp only [List.length_append, List.length_singleton]
    omega
  · rw [he]
    exact ⟨hs.slots, hs.below⟩

theorem accounted_success {clock : ℚ} {c : Call} (hc : c ∈ s.pending) (hs : Accounted cfg s) :
    Accounted cfg (s.success cfg clock c) := by
  have hlen : (s.pending.erase c).length = s.pending.length - 1 := List.length_erase_of_mem hc
  have hpos : 0 < s.pending.length := List.length_pos_of_mem hc
  rcases CircuitBreaker.recordSuccess_cases cfg clock s.breaker with
    ⟨hst, he⟩ | ⟨hst, hlt, he⟩ | ⟨-, -, he⟩
  · exact accounted_of_not_halfOpen (by simp [success, he, hst])
  · have hslots := hs.slots hst
    refine ⟨fun _ => ?_, fun _ => ?_⟩
    · simp only [success, he, hlen]
      omega
    · simpa [success, he] using hlt
  · exact accounted_of_not_halfOpen (by simp [success, he])

theorem accounted_failure {clock : ℚ} {c : Call} : Accounted cfg (s.failure cfg clock c) := by
  apply accounted_of_not_halfOpen
  rcases CircuitBreaker.recordFailure_cases cfg clock s.breaker with
    ⟨-, he⟩ | ⟨hst, -, he⟩ | ⟨-, -, he⟩
  · simp [failure, he]
  · simpa [failure, he] using hst
  · simp [failure, he]

/-- Every run keeps the slots accounted for. -/
theorem accounted_run (hmax : 1 ≤ cfg.halfOpenMaxCalls) (hsucc : 1 ≤ cfg.successThreshold)
    {start : ℚ} {ls : List BreakerLabel} (h : Run (step cfg) (initial start) ls s) :
    Accounted cfg s := by
  refine h.preserves ?_ (accounted_initial start)
  intro u l v hu huv
  obtain ⟨-, ⟨-, rfl⟩ | ⟨c, -, hc, rfl⟩ | ⟨c, -, -, rfl⟩⟩ := step_cases huv
  · exact accounted_allow hmax hsucc _ hu
  · exact accounted_success hc hu
  · exact accounted_failure

/-- Some clock value from now on at which `allow_request` says yes. -/
def Recovers (cfg : BreakerConfig) (s : BreakerCalls) : Prop :=
  ∃ clock, s.clock ≤ clock ∧ (s.breaker.allowRequest cfg clock).1 = true

/-- With at least as many trial slots as successes needed, a breaker with nothing
pending recovers. -/
theorem recovers_of_accounted (hmax : 1 ≤ cfg.halfOpenMaxCalls)
    (hle : cfg.successThreshold ≤ cfg.halfOpenMaxCalls) (hs : Accounted cfg s)
    (hq : s.pending = []) : Recovers cfg s := by
  cases hst : s.breaker.state with
  | closed =>
    refine ⟨s.clock, le_refl _, ?_⟩
    simp [CircuitBreaker.allowRequest, CircuitBreaker.takeSlot, hst]
  | opened =>
    -- wait until the cooldown of the last trip is over
    refine ⟨max s.clock (s.breaker.openedAt + cfg.recoveryTimeout), le_max_left _ _, ?_⟩
    have hcool : cfg.recoveryTimeout ≤
        max s.clock (s.breaker.openedAt + cfg.recoveryTimeout) - s.breaker.openedAt := by
      have := le_max_right s.clock (s.breaker.openedAt + cfg.recoveryTimeout)
      linarith
    rcases CircuitBreaker.allowRequest_cases
        (max s.clock (s.breaker.openedAt + cfg.recoveryTimeout)) s.breaker hmax with
      ⟨h, -⟩ | ⟨-, h, -⟩ | ⟨-, -, he⟩ | ⟨h, -⟩ | ⟨h, -⟩
    · simp [hst] at h
    · exact absurd hcool (not_le.mpr h)
    · rw [he]
    · simp [hst] at h
    · simp [hst] at h
  | halfOpen =>
    have hslots := hs.slots hst
    have hbelow := hs.below hst
    have hfree : ¬ s.breaker.halfOpenCalls ≥ cfg.halfOpenMaxCalls := by
      rw [hq, List.length_nil] at hslots
      omega
    refine ⟨s.clock, le_refl _, ?_⟩
    simp [CircuitBreaker.allowRequest, CircuitBreaker.takeSlot, hst, hfree]

/-! ## Wedging a breaker with too few trial slots -/

/-- A CLOSED breaker with nothing pending serves one failing call. -/
theorem run_failing_call {start : ℚ} {ls : List BreakerLabel}
    (h : Run (step cfg) (initial start) ls s) (hq : s.pending = [])
    (hst : s.breaker.state = .closed) :
    ∃ ls' t, Run (step cfg) (initial start) ls' t ∧ t.pending = [] ∧ t.clock = s.clock ∧
      t.breaker = s.breaker.recordFailure cfg s.clock := by
  let c : Call := ⟨s.admitted.length, none⟩
  let u := s.allow cfg s.clock
  have hu : u = { s with admitted := s.admitted ++ [c], pending := [c] } := by
    simp [u, c, allow, CircuitBreaker.allowRequest, CircuitBreaker.takeSlot, hst, hq]
  have hc : c ∈ u.pending := by rw [hu]; simp
  have hclock : u.clock = s.clock := rfl
  refine ⟨_, u.failure cfg s.clock c,
    (h.snoc (step_allow (le_refl _))).snoc (step_failure (le_of_eq hclock) hc), ?_, rfl, ?_⟩
  · simp [failure, hu]
  · simp [failure, hu]

/-- Enough failing calls one after another trip a fresh breaker. -/
theorem run_trip (hfail : 1 ≤ cfg.failureThreshold) (start : ℚ) :
    ∃ ls s, Run (step cfg) (initial start) ls s ∧ s.pending = [] ∧ s.clock = start ∧
      s.breaker = ⟨.opened, 0, 0, 0, start⟩ := by
  have count : ∀ n, n < cfg.failureThreshold →
      ∃ ls s, Run (step cfg) (initial start) ls s ∧ s.pending = [] ∧ s.clock = start ∧
        s.breaker = ⟨.closed, n, 0, 0, 0⟩ := by
    intro n hn
    induction n with
    | zero => exact ⟨[], initial start, run_nil.mpr rfl, rfl, rfl, rfl⟩
    | succ n ih =>
      obtain ⟨ls, s, hrun, hq, hclock, hb⟩ := ih (by omega)
      obtain ⟨ls', t, hrun', hq', hclock', hb'⟩ := run_failing_call hrun hq (by rw [hb])
      refine ⟨ls', t, hrun', hq', by rw [hclock', hclock], ?_⟩
      rw [hb', hb]
      have hlt : ¬ n + 1 ≥ cfg.failureThreshold := by omega
      simp [CircuitBreaker.recordFailure, hlt]
  obtain ⟨ls, s, hrun, hq, hclock, hb⟩ := count (cfg.failureThreshold - 1) (by omega)
  obtain ⟨ls', t, hrun', hq', hclock', hb'⟩ := run_failing_call hrun hq (by rw [hb])
  refine ⟨ls', t, hrun', hq', by rw [hclock', hclock], ?_⟩
  have hge : cfg.failureThreshold - 1 + 1 ≥ cfg.failureThreshold := by omega
  rw [hb', hb, hclock]
  simp [CircuitBreaker.recordFailure, CircuitBreaker.transitionTo, hge]

/-- A trial that succeeds in a HALF_OPEN breaker uses up its slot for good. -/
theorem run_trial_success (hmax : 1 ≤ cfg.halfOpenMaxCalls) {start clock : ℚ}
    {ls : List BreakerLabel} (h : Run (step cfg) (initial start) ls s) (hclock : s.clock ≤ clock)
    (hq : s.pending = []) {n : ℕ} (hn : n + 1 < cfg.successThreshold)
    (hst : (s.breaker.state = .opened ∧ cfg.recoveryTimeout ≤ clock - s.breaker.openedAt ∧ n = 0) ∨
      (s.breaker.state = .halfOpen ∧ s.breaker.halfOpenCalls = n ∧ s.breaker.successes = n ∧
        n < cfg.halfOpenMaxCalls)) :
    ∃ ls' t, Run (step cfg) (initial start) ls' t ∧ t.pending = [] ∧ t.clock = clock ∧
      t.breaker.state = .halfOpen ∧ t.breaker.halfOpenCalls = n + 1 ∧
      t.breaker.successes = n + 1 := by
  -- whichever way the slot is taken, the state afterwards is HALF_OPEN with one call pending
  have hallow : ∃ c, (s.allow cfg clock).pending = [c] ∧
      (s.allow cfg clock).breaker.state = .halfOpen ∧
      (s.allow cfg clock).breaker.halfOpenCalls = n + 1 ∧
      (s.allow cfg clock).breaker.successes = n := by
    rcases allow_cases clock s hmax with
      ⟨h', -⟩ | ⟨h', -, he⟩ | ⟨h', -, he⟩ | ⟨h', -⟩
    · rcases hst with ⟨h'', -, -⟩ | ⟨h'', -, -, -⟩ <;> simp [h'] at h''
    · rcases hst with ⟨-, -, rfl⟩ | ⟨h'', -, -, -⟩
      · rw [he, hq]
        exact ⟨_, rfl, rfl, rfl, rfl⟩
      · simp [h'] at h''
    · rcases hst with ⟨h'', -, -⟩ | ⟨-, h1, h2, -⟩
      · simp [h'] at h''
      · rw [he, hq]
        exact ⟨_, rfl, h', by simp [h1], h2⟩
    · rcases hst with ⟨h1, h2, -⟩ | ⟨h1, h2, -, h4⟩ <;> rcases h' with ⟨h5, h6⟩ | ⟨h5, h6⟩
      · exact absurd h2 (not_le.mpr h6)
      · simp [h1] at h5
      · simp [h1] at h5
      · omega
  obtain ⟨c, hpend, hhalf, hcalls, hsucc⟩ := hallow
  have hc : c ∈ (s.allow cfg clock).pending := by rw [hpend]; simp
  have hb : (s.allow cfg clock).breaker.recordSuccess cfg clock =
      { (s.allow cfg clock).breaker with successes := n + 1 } := by
    rcases CircuitBreaker.recordSuccess_cases cfg clock (s.allow cfg clock).breaker with
      ⟨h', -⟩ | ⟨-, -, he⟩ | ⟨-, h', -⟩
    · exact absurd hhalf h'
    · rw [he, hsucc]
    · omega
  refine ⟨_, (s.allow cfg clock).success cfg clock c,
    (h.snoc (step_allow hclock)).snoc (step_success (le_refl _) hc), ?_, rfl, ?_, ?_, ?_⟩
  · simp [success, hpend]
  · simpa [success, hb] using hhalf
  · simpa [success, hb] using hcalls
  · simp [success, hb]

/-- **With fewer trial slots than successes needed, the breaker wedges**: trip it,
let the cooldown elapse, and let every trial succeed.  The slots are used up, the
threshold is not met, and HALF_OPEN refuses every request from then on. -/
theorem wedged_of_few_slots (hfail : 1 ≤ cfg.failureThreshold) (hmax : 1 ≤ cfg.halfOpenMaxCalls)
    (hrec : 0 ≤ cfg.recoveryTimeout) (hlt : cfg.halfOpenMaxCalls < cfg.successThreshold) :
    ∃ ls s, Run (step cfg) (initial 0) ls s ∧ s.pending = [] ∧ ¬ Recovers cfg s := by
  have trials : ∀ n, n < cfg.halfOpenMaxCalls →
      ∃ ls s, Run (step cfg) (initial 0) ls s ∧ s.pending = [] ∧
        s.clock = cfg.recoveryTimeout ∧ s.breaker.state = .halfOpen ∧
        s.breaker.halfOpenCalls = n + 1 ∧ s.breaker.successes = n + 1 := by
    intro n hn
    induction n with
    | zero =>
      obtain ⟨ls, s, hrun, hq, hclock, hb⟩ := run_trip hfail 0
      exact run_trial_success hmax hrun (by rw [hclock]; exact hrec) hq (by omega)
        (Or.inl ⟨by rw [hb], by rw [hb]; simp, rfl⟩)
    | succ n ih =>
      obtain ⟨ls, s, hrun, hq, hclock, hst, hcalls, hsucc⟩ := ih (by omega)
      exact run_trial_success hmax hrun (le_of_eq hclock) hq (by omega)
        (Or.inr ⟨hst, hcalls, hsucc, hn⟩)
  obtain ⟨ls, s, hrun, hq, -, hst, hcalls, -⟩ := trials (cfg.halfOpenMaxCalls - 1) (by omega)
  refine ⟨ls, s, hrun, hq, ?_⟩
  rintro ⟨clock, -, hyes⟩
  have hfull : s.breaker.halfOpenCalls ≥ cfg.halfOpenMaxCalls := by omega
  simp [CircuitBreaker.allowRequest, CircuitBreaker.takeSlot, hst, hfull] at hyes

/-- **Exactly which breakers never wedge.**  Every state with no pending call, in
every run, recovers if and only if `success_threshold ≤ half_open_max_calls`. -/
theorem never_wedges_iff (cfg : BreakerConfig) (hfail : 1 ≤ cfg.failureThreshold)
    (hmax : 1 ≤ cfg.halfOpenMaxCalls) (hsucc : 1 ≤ cfg.successThreshold)
    (hrec : 0 ≤ cfg.recoveryTimeout) :
    (∀ start ls s, Run (step cfg) (initial start) ls s → s.pending = [] → Recovers cfg s) ↔
      cfg.successThreshold ≤ cfg.halfOpenMaxCalls := by
  constructor
  · intro h
    by_contra hgt
    obtain ⟨ls, s, hrun, hq, hwedged⟩ := wedged_of_few_slots hfail hmax hrec (not_le.mp hgt)
    exact hwedged (h 0 ls s hrun hq)
  · intro hle start ls s hrun hq
    exact recovers_of_accounted hmax hle (accounted_run hmax hsucc hrun) hq

/-- The environment's default breaker never wedges. -/
theorem never_wedges_default :
    (∀ start ls s, Run (step {}) (initial start) ls s → s.pending = [] → Recovers {} s) ↔
      (1 : ℕ) ≤ 1 :=
  never_wedges_iff {} (by decide) (by decide) (by decide) (by decide +kernel)

/-- **A wedge.**  One trial slot, two successes needed: the call at 0 fails and
trips the breaker, the trial at 1 succeeds and reports, nothing is pending, and
no later request is ever admitted. -/
theorem wedges_with_one_slot_two_successes :
    ∃ s, Run (step ⟨1, 1, 1, 2⟩) (initial 0)
        [⟨0, .allow⟩, ⟨0, .failure ⟨0, none⟩⟩, ⟨1, .allow⟩, ⟨1, .success ⟨1, some 1⟩⟩] s ∧
      s.pending = [] ∧
      ∀ clock, s.clock ≤ clock → (s.breaker.allowRequest ⟨1, 1, 1, 2⟩ clock).1 = false := by
  refine ⟨⟨⟨.halfOpen, 0, 1, 1, 0⟩, 1, [⟨0, none⟩, ⟨1, some 1⟩], [], 1, 1⟩, ?_, rfl, ?_⟩
  · decide +kernel
  · intro clock _
    rfl

end BreakerCalls
end EventLedger
