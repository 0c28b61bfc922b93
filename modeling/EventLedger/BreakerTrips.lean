import EventLedger.BreakerCalls
import Mathlib.Algebra.Order.Floor.Ring
import Mathlib.Data.Rat.Floor
import Mathlib.Tactic.Linarith
import Mathlib.Tactic.Ring

/-!
# What a tripped breaker lets through

Two results about the time after a trip, when the breaker enters OPEN at `t₀`.

*Traffic.*  As long as no success is recorded, the breaker alternates between
OPEN and HALF_OPEN.  Every HALF_OPEN episode admits at most
`half_open_max_calls` requests, and consecutive episodes are at least
`recovery_timeout` apart, because an episode starts only `recovery_timeout` after
`opened_at` and `opened_at` only moves forward (`SinceTrip`).

*Recovery.*  `record_failure` keeps counting while OPEN, and a streak that
reaches `failure_threshold` enters OPEN again, arming the cooldown anew.  The
times at which this happens can be read off the labels alone (`rearms`), and they
decide exactly when the first trial is admitted.
-/
namespace EventLedger
namespace BreakerCalls
open LabelledRun

variable {cfg : BreakerConfig} {s t : BreakerCalls} {l : BreakerLabel}

/-! ## Requests admitted per episode -/

/-- How many calls HALF_OPEN episode `e` has admitted so far. -/
def admittedIn (e : ℕ) (s : BreakerCalls) : ℕ :=
  s.admitted.countP fun c => c.trial = some e

/-- No episode has admitted more than `half_open_max_calls` requests; the slot
counter counts the running episode, and later episodes have admitted nothing. -/
structure EpisodesBounded (cfg : BreakerConfig) (s : BreakerCalls) : Prop where
  bound : ∀ e, s.admittedIn e ≤ cfg.halfOpenMaxCalls
  running : s.breaker.state = .halfOpen → s.admittedIn s.episode = s.breaker.halfOpenCalls
  future : ∀ e, s.episode < e → s.admittedIn e = 0

theorem episodesBounded_initial (start : ℚ) : EpisodesBounded cfg (initial start) := by
  constructor <;> simp [initial, admittedIn]

theorem episodesBounded_congr {u : BreakerCalls} (hs : EpisodesBounded cfg s)
    (hadm : u.admitted = s.admitted) (hep : u.episode = s.episode)
    (hb : u.breaker.state = .halfOpen →
      s.breaker.state = .halfOpen ∧ u.breaker.halfOpenCalls = s.breaker.halfOpenCalls) :
    EpisodesBounded cfg u := by
  refine ⟨fun e => ?_, fun h => ?_, fun e he => ?_⟩
  · rw [admittedIn, hadm]
    exact hs.bound e
  · rw [admittedIn, hadm, hep, (hb h).2]
    exact hs.running (hb h).1
  · rw [admittedIn, hadm]
    exact hs.future e (hep ▸ he)

theorem episodesBounded_allow (hmax : 1 ≤ cfg.halfOpenMaxCalls) (hs : EpisodesBounded cfg s)
    (clock : ℚ) : EpisodesBounded cfg (s.allow cfg clock) := by
  rcases allow_cases clock s hmax with ⟨hst, he⟩ | ⟨hst, -, he⟩ | ⟨hst, hlt, he⟩ | ⟨-, he⟩
  · -- an ordinary call belongs to no episode
    rw [he]
    have hsame : ∀ e, admittedIn e
        { s with clock := clock
                 admitted := s.admitted ++ [⟨s.admitted.length, none⟩]
                 pending := s.pending ++ [⟨s.admitted.length, none⟩] } = s.admittedIn e := by
      intro e
      simp [admittedIn]
    refine ⟨fun e => ?_, fun h => ?_, fun e hlt => ?_⟩
    · rw [hsame]
      exact hs.bound e
    · simp [hst] at h
    · rw [hsame]
      exact hs.future e hlt
  · -- the first trial of a new episode
    rw [he]
    refine ⟨fun e => ?_, fun _ => ?_, fun e hlt => ?_⟩
    · by_cases hee : e = s.episode + 1
      · subst hee
        have := hs.future (s.episode + 1) (by omega)
        simp only [admittedIn] at this ⊢
        simp [List.countP_append, this, hmax]
      · have hb := hs.bound e
        have hne : ¬ s.episode + 1 = e := fun h => hee h.symm
        simp only [admittedIn] at hb ⊢
        simpa [List.countP_append, hne] using hb
    · have := hs.future (s.episode + 1) (by omega)
      simp only [admittedIn] at this ⊢
      simp [List.countP_append, this]
    · have hz := hs.future e (by simp only at hlt; omega)
      have hne : ¬ s.episode + 1 = e := by simp only at hlt; omega
      simp only [admittedIn] at hz ⊢
      simp [List.countP_append, hz, hne]
  · -- one more trial of the running episode
    rw [he]
    have hrun := hs.running hst
    refine ⟨fun e => ?_, fun _ => ?_, fun e hgt => ?_⟩
    · by_cases hee : e = s.episode
      · subst hee
        simp only [admittedIn] at hrun ⊢
        simp [List.countP_append, hrun]
        omega
      · have hb := hs.bound e
        have hne : ¬ s.episode = e := fun h => hee h.symm
        simp only [admittedIn] at hb ⊢
        simpa [List.countP_append, hne] using hb
    · simp only [admittedIn] at hrun ⊢
      simp [List.countP_append, hrun]
    · have hz := hs.future e hgt
      have hne : ¬ s.episode = e := by simp only at hgt; omega
      simp only [admittedIn] at hz ⊢
      simp [List.countP_append, hz, hne]
  · rw [he]
    exact episodesBounded_congr hs rfl rfl fun h => ⟨h, rfl⟩

/-- **No episode admits more than `half_open_max_calls` requests**, in any run. -/
theorem episodesBounded_run (hmax : 1 ≤ cfg.halfOpenMaxCalls) {start : ℚ}
    {ls : List BreakerLabel} (h : Run (step cfg) (initial start) ls s) :
    EpisodesBounded cfg s := by
  refine h.preserves ?_ (episodesBounded_initial start)
  intro u l v hu huv
  obtain ⟨-, ⟨-, rfl⟩ | ⟨c, -, -, rfl⟩ | ⟨c, -, -, rfl⟩⟩ := step_cases huv
  · exact episodesBounded_allow hmax hu _
  · refine episodesBounded_congr hu rfl rfl fun h => ?_
    rcases CircuitBreaker.recordSuccess_cases cfg l.clock u.breaker with
      ⟨hst, he⟩ | ⟨hst, -, he⟩ | ⟨-, -, he⟩
    · exact absurd (by simpa [success, he] using h) hst
    · exact ⟨hst, by simp [success, he]⟩
    · simp [success, he] at h
  · refine episodesBounded_congr hu rfl rfl fun h => ?_
    rcases CircuitBreaker.recordFailure_cases cfg l.clock u.breaker with
      ⟨-, he⟩ | ⟨hst, -, he⟩ | ⟨-, -, he⟩
    · simp [failure, he] at h
    · exact absurd (by simpa [failure, he] using h) hst
    · simp [failure, he] at h

/-! ## Episodes since a trip -/

/-- What holds from a trip at `s₀` on, while no success is recorded: the `k`-th
episode after the trip started no earlier than `k` cooldowns after it, the next
one will be a cooldown later still, and every request admitted since took a trial
slot of one of these episodes. -/
structure SinceTrip (cfg : BreakerConfig) (s₀ s : BreakerCalls) : Prop where
  episode : s₀.episode ≤ s.episode
  not_closed : s.breaker.state ≠ .closed
  spaced : s₀.clock + ((s.episode - s₀.episode : ℕ) : ℚ) * cfg.recoveryTimeout ≤ s.clock
  armed : s.breaker.state = .opened →
    s₀.clock + ((s.episode - s₀.episode : ℕ) : ℚ) * cfg.recoveryTimeout ≤ s.breaker.openedAt
  admitted : s.admitted.length ≤
    s₀.admitted.length + cfg.halfOpenMaxCalls * (s.episode - s₀.episode)
  slots : s.breaker.state = .halfOpen →
    s.breaker.halfOpenCalls ≤ cfg.halfOpenMaxCalls ∧
    s.admitted.length + (cfg.halfOpenMaxCalls - s.breaker.halfOpenCalls) ≤
      s₀.admitted.length + cfg.halfOpenMaxCalls * (s.episode - s₀.episode)

variable {s₀ : BreakerCalls}

theorem sinceTrip_refl (hopen : s₀.breaker.state = .opened)
    (hat : s₀.breaker.openedAt = s₀.clock) : SinceTrip cfg s₀ s₀ := by
  refine ⟨le_refl _, by simp [hopen], by simp, fun _ => by simp [hat], by simp, fun h => ?_⟩
  simp [hopen] at h

theorem sinceTrip_allow (hmax : 1 ≤ cfg.halfOpenMaxCalls) {clock : ℚ} (hclock : s.clock ≤ clock)
    (hs : SinceTrip cfg s₀ s) : SinceTrip cfg s₀ (s.allow cfg clock) := by
  obtain ⟨hep, hnc, hsp, harm, hadm, hslots⟩ := hs
  rcases allow_cases clock s hmax with ⟨hst, -⟩ | ⟨hst, hcool, he⟩ | ⟨hst, hlt, he⟩ | ⟨-, he⟩
  · exact absurd hst hnc
  · -- a new episode starts: one cooldown after `opened_at`
    rw [he]
    have hk : s.episode + 1 - s₀.episode = (s.episode - s₀.episode) + 1 := by omega
    have hstart : s₀.clock + ((s.episode - s₀.episode + 1 : ℕ) : ℚ) * cfg.recoveryTimeout
        ≤ clock := by
      have := harm hst
      push_cast
      linarith
    refine ⟨by simp only; omega, by simp, ?_, fun h => by simp at h, ?_, fun _ => ⟨hmax, ?_⟩⟩
    · simpa only [hk] using hstart
    · simp only [List.length_append, List.length_singleton, hk, Nat.mul_succ]
      omega
    · simp only [List.length_append, List.length_singleton, hk, Nat.mul_succ]
      omega
  · rw [he]
    obtain ⟨hle, hsl⟩ := hslots hst
    refine ⟨hep, by simp [hst], le_trans hsp hclock, fun h => by simp [hst] at h, ?_,
      fun _ => ⟨hlt, ?_⟩⟩
    · simp only [List.length_append, List.length_singleton]
      omega
    · simp only [List.length_append, List.length_singleton]
      omega
  · rw [he]
    exact ⟨hep, hnc, le_trans hsp hclock, harm, hadm, hslots⟩

theorem sinceTrip_failure {clock : ℚ} {c : Call} (hclock : s.clock ≤ clock)
    (hs : SinceTrip cfg s₀ s) : SinceTrip cfg s₀ (s.failure cfg clock c) := by
  obtain ⟨hep, hnc, hsp, harm, hadm, hslots⟩ := hs
  have hsp' := le_trans hsp hclock
  rcases CircuitBreaker.recordFailure_cases cfg clock s.breaker with
    ⟨-, he⟩ | ⟨hst, -, he⟩ | ⟨-, -, he⟩
  · exact ⟨hep, by simp [failure, he], hsp', fun _ => by simpa [failure, he] using hsp', hadm,
      fun h => by simp [failure, he] at h⟩
  · refine ⟨hep, by simpa [failure, he] using hnc, hsp', fun h => ?_, hadm, fun h => ?_⟩
    · simpa [failure, he] using harm (by simpa [failure, he] using h)
    · exact absurd (by simpa [failure, he] using h) hst
  · exact ⟨hep, by simp [failure, he], hsp', fun _ => by simpa [failure, he] using hsp', hadm,
      fun h => by simp [failure, he] at h⟩

/-- Along every run without a success, the trip keeps bounding the traffic. -/
theorem sinceTrip_run (hmax : 1 ≤ cfg.halfOpenMaxCalls) {ls : List BreakerLabel}
    (h : Run (step cfg) s ls t) (hno : ∀ l ∈ ls, ∀ c, l.action ≠ .success c)
    (hs : SinceTrip cfg s₀ s) : SinceTrip cfg s₀ t := by
  induction ls generalizing s with
  | nil => exact run_nil.mp h ▸ hs
  | cons l ls ih =>
    obtain ⟨u, hl, hu⟩ := run_cons.mp h
    refine ih hu (fun l' hl' => hno l' (List.mem_cons_of_mem _ hl')) ?_
    obtain ⟨hclock, ⟨-, rfl⟩ | ⟨c, hc, -, -⟩ | ⟨c, -, -, rfl⟩⟩ := step_cases hl
    · exact sinceTrip_allow hmax hclock hs
    · exact absurd hc (hno l (List.mem_cons_self ..) c)
    · exact sinceTrip_failure hclock hs

/-- **A tripped breaker bounds downstream traffic.**  In any run, let the breaker
be in OPEN, entered at the present clock reading `t₀`, and let no success be
recorded from there up to `t₀ + T`.  Then no episode admits more than
`half_open_max_calls` requests, the `k`-th episode after the trip starts no
earlier than `t₀ + k * recovery_timeout`, and at most
`half_open_max_calls * ⌊T / recovery_timeout⌋` requests are admitted. -/
theorem tripped_bounds_traffic (cfg : BreakerConfig) (hmax : 1 ≤ cfg.halfOpenMaxCalls)
    (hrec : 0 < cfg.recoveryTimeout) {start : ℚ} {ls₀ : List BreakerLabel}
    (hreach : Run (step cfg) (initial start) ls₀ s₀) (hopen : s₀.breaker.state = .opened)
    (hat : s₀.breaker.openedAt = s₀.clock) {T : ℚ} {ls : List BreakerLabel}
    (h : Run (step cfg) s₀ ls t) (hT : t.clock ≤ s₀.clock + T)
    (hno : ∀ l ∈ ls, ∀ c, l.action ≠ .success c) :
    (∀ e, t.admittedIn e ≤ cfg.halfOpenMaxCalls) ∧
    (∀ ls₁ l ls₂ u v, ls = ls₁ ++ l :: ls₂ → Run (step cfg) s₀ ls₁ u → step cfg u l = some v →
      u.episode < v.episode →
        s₀.clock + ((v.episode - s₀.episode : ℕ) : ℚ) * cfg.recoveryTimeout ≤ l.clock) ∧
    t.admitted.length - s₀.admitted.length ≤
      cfg.halfOpenMaxCalls * ⌊T / cfg.recoveryTimeout⌋₊ := by
  have hbase : SinceTrip cfg s₀ s₀ := sinceTrip_refl hopen hat
  refine ⟨(episodesBounded_run hmax (hreach.append h)).bound, ?_, ?_⟩
  · intro ls₁ l ls₂ u v hsplit hu hv _
    have hv' : SinceTrip cfg s₀ v := by
      refine sinceTrip_run hmax (hu.snoc hv) (fun l' hl' => hno l' ?_) hbase
      rw [hsplit]
      rcases List.mem_append.mp hl' with h' | h'
      · exact List.mem_append_left _ h'
      · exact List.mem_append_right _ (List.mem_singleton.mp h' ▸ List.mem_cons_self ..)
    exact (step_clock hv).1 ▸ hv'.spaced
  · have ht := sinceTrip_run hmax h hno hbase
    have hk : t.episode - s₀.episode ≤ ⌊T / cfg.recoveryTimeout⌋₊ := by
      apply Nat.le_floor
      rw [le_div_iff₀ hrec]
      have := ht.spaced
      linarith
    calc t.admitted.length - s₀.admitted.length
        ≤ cfg.halfOpenMaxCalls * (t.episode - s₀.episode) := by
          have := ht.admitted
          omega
      _ ≤ cfg.halfOpenMaxCalls * ⌊T / cfg.recoveryTimeout⌋₊ := Nat.mul_le_mul_left _ hk

/-- The only call has failed, and the breaker has tripped. -/
def tripped : BreakerCalls := ⟨⟨.opened, 0, 0, 0, 0⟩, 0, [⟨0, none⟩], [], 0, 0⟩

/-- A trial fails after one cooldown, and after another one there is the next. -/
def twoTrials : List BreakerLabel := [⟨1, .allow⟩, ⟨1, .failure ⟨1, some 1⟩⟩, ⟨2, .allow⟩]

/-- Two cooldowns after a trip, with one trial slot per episode: the two requests admitted since the
trip are all that can be. -/
theorem tripped_bounds_traffic_two_episodes : ∃ t, Run (step ⟨1, 1, 1, 1⟩) tripped twoTrials t ∧
    t.episode = tripped.episode + 2 ∧ (∀ e, t.admittedIn e ≤ 1) ∧
    t.admitted.length - tripped.admitted.length = 2 ∧
    t.admitted.length - tripped.admitted.length ≤ 1 * ⌊(2 : ℚ) / 1⌋₊ := by
  have hreach : Run (step ⟨1, 1, 1, 1⟩) (initial 0) [⟨0, .allow⟩, ⟨0, .failure ⟨0, none⟩⟩]
      tripped := by decide +kernel
  have hrun : Run (step ⟨1, 1, 1, 1⟩) tripped twoTrials
      ⟨⟨.halfOpen, 0, 0, 1, 1⟩, 2, [⟨0, none⟩, ⟨1, some 1⟩, ⟨2, some 2⟩], [⟨2, some 2⟩], 2, 0⟩ := by
    decide +kernel
  obtain ⟨hepisodes, -, hadmitted⟩ := tripped_bounds_traffic ⟨1, 1, 1, 1⟩ (by decide)
    (by decide +kernel) hreach rfl rfl (T := 2) hrun (by decide +kernel) (by simp [twoTrials])
  exact ⟨_, hrun, rfl, hepisodes, rfl, hadmitted⟩

/-! ## The first trial after the cooldown -/

/-- The clock readings at which the outcomes recorded while OPEN enter OPEN again:
the failures that complete a streak of `threshold` failures, where a success or a
completed streak starts the count afresh and `n` failures have been counted
before. -/
def rearms (threshold : ℕ) : ℕ → List BreakerLabel → List ℚ
  | _, [] => []
  | n, l :: ls =>
    match l.action with
    | .allow => rearms threshold n ls
    | .success _ => rearms threshold 0 ls
    | .failure _ =>
      if threshold ≤ n + 1 then l.clock :: rearms threshold 0 ls else rearms threshold (n + 1) ls

/-- `allow_request` at this clock reading admits a trial. -/
def AdmitsTrial (cfg : BreakerConfig) (clock : ℚ) (s : BreakerCalls) : Prop :=
  (s.breaker.allowRequest cfg clock).1 = true ∧
    (s.breaker.allowRequest cfg clock).2.state = .halfOpen

theorem admitsTrial_iff_of_opened (hmax : 1 ≤ cfg.halfOpenMaxCalls)
    (hopen : s.breaker.state = .opened) (clock : ℚ) :
    AdmitsTrial cfg clock s ↔ s.breaker.openedAt + cfg.recoveryTimeout ≤ clock := by
  unfold AdmitsTrial
  rcases CircuitBreaker.allowRequest_cases clock s.breaker hmax with
    ⟨h, -⟩ | ⟨-, hlt, he⟩ | ⟨-, hge, he⟩ | ⟨h, -⟩ | ⟨h, -⟩
  · simp [hopen] at h
  · rw [he]
    constructor
    · intro h
      simp at h
    · intro h
      linarith
  · rw [he]
    constructor
    · intro _
      linarith
    · intro _
      exact ⟨rfl, rfl⟩
  · simp [hopen] at h
  · simp [hopen] at h

/-- **While the breaker stays OPEN, `opened_at` is the latest of the trip and the
re-arming failures.**  `since` bounds `opened_at` from below, so requests made
before `since + recovery_timeout` are refused and change nothing. -/
theorem openedAt_run (hmax : 1 ≤ cfg.halfOpenMaxCalls) (since : ℚ) {ls : List BreakerLabel}
    (h : Run (step cfg) s ls t) (hopen : s.breaker.state = .opened)
    (hsince : since ≤ s.breaker.openedAt) (hclock : s.breaker.openedAt ≤ s.clock)
    (hearly : ∀ l ∈ ls, l.action = .allow → l.clock < since + cfg.recoveryTimeout) :
    t.breaker.state = .opened ∧
    t.breaker.openedAt ∈ s.breaker.openedAt :: rearms cfg.failureThreshold s.breaker.failures ls ∧
    ∀ r ∈ s.breaker.openedAt :: rearms cfg.failureThreshold s.breaker.failures ls,
      r ≤ t.breaker.openedAt := by
  induction ls generalizing s with
  | nil =>
    cases run_nil.mp h
    simp [hopen, rearms]
  | cons l ls ih =>
    obtain ⟨u, hl, hu⟩ := run_cons.mp h
    have hearly' := fun l' (hl' : l' ∈ ls) => hearly l' (List.mem_cons_of_mem _ hl')
    have hne : s.breaker.state ≠ .halfOpen := by simp [hopen]
    obtain ⟨hle, ⟨ha, rfl⟩ | ⟨c, ha, -, rfl⟩ | ⟨c, ha, -, rfl⟩⟩ := step_cases hl
    · -- a request made too early is refused
      have hlt := hearly l (List.mem_cons_self ..) ha
      rcases allow_cases l.clock s hmax with ⟨h', -⟩ | ⟨-, h', -⟩ | ⟨h', -⟩ | ⟨-, he⟩
      · simp [hopen] at h'
      · linarith
      · simp [hopen] at h'
      · rw [he] at hu
        have := ih hu hopen hsince (le_trans hclock hle) hearly'
        simpa [rearms, ha] using this
    · -- a success clears the streak
      rcases CircuitBreaker.recordSuccess_cases cfg l.clock s.breaker with
        ⟨-, he⟩ | ⟨h', -⟩ | ⟨h', -⟩
      · have := ih hu (by simpa [success, he] using hopen) (by simpa [success, he] using hsince)
          (by simpa [success, he] using le_trans hclock hle) hearly'
        simpa [rearms, ha, success, he] using this
      · exact absurd h' hne
      · exact absurd h' hne
    · rcases CircuitBreaker.recordFailure_cases cfg l.clock s.breaker with
        ⟨h', -⟩ | ⟨-, hlt, he⟩ | ⟨-, hge, he⟩
      · exact absurd h' hne
      · have hstreak : ¬ cfg.failureThreshold ≤ s.breaker.failures + 1 := by omega
        have := ih hu (by simpa [failure, he] using hopen) (by simpa [failure, he] using hsince)
          (by simpa [failure, he] using le_trans hclock hle) hearly'
        simpa [rearms, ha, failure, he, hstreak] using this
      · -- the streak is complete: the cooldown starts again at this failure
        have hup : s.breaker.openedAt ≤ l.clock := le_trans hclock hle
        obtain ⟨ho, hmem, hub⟩ := ih hu (by simp [failure, he])
          (by simpa [failure, he] using le_trans hsince hup) (by simp [failure, he]) hearly'
        simp only [failure, he] at hmem hub
        have hr : rearms cfg.failureThreshold s.breaker.failures (l :: ls) =
            l.clock :: rearms cfg.failureThreshold 0 ls := by
          simp [rearms, ha, hge]
        rw [hr]
        refine ⟨ho, List.mem_cons_of_mem _ hmem, ?_⟩
        intro r hr'
        rcases List.mem_cons.mp hr' with rfl | hr'
        · exact le_trans hup (hub l.clock (List.mem_cons_self ..))
        · exact hub r hr'

/-- **Exactly when recovery is not postponed.**  In any run, let a step leave
CLOSED or HALF_OPEN for OPEN at `t₀`.  The first `allow_request` at or after
`t₀ + recovery_timeout` is admitted as a trial if and only if every failure that
completed a streak of `failure_threshold` failures in between is at least
`recovery_timeout` old. -/
theorem trial_after_cooldown_iff (cfg : BreakerConfig) (hmax : 1 ≤ cfg.halfOpenMaxCalls)
    {start : ℚ} {ls₀ ls : List BreakerLabel} {s₀ s t : BreakerCalls} {l : BreakerLabel} {clock : ℚ}
    (_ : Run (step cfg) (initial start) ls₀ s₀) (hfrom : s₀.breaker.state ≠ .opened)
    (hl : step cfg s₀ l = some s) (hto : s.breaker.state = .opened)
    (h : Run (step cfg) s ls t)
    (hfirst : ∀ l' ∈ ls, l'.action = .allow → l'.clock < l.clock + cfg.recoveryTimeout)
    (hlate : l.clock + cfg.recoveryTimeout ≤ clock) (_ : t.clock ≤ clock) :
    AdmitsTrial cfg clock t ↔
      ∀ r ∈ rearms cfg.failureThreshold 0 ls, r + cfg.recoveryTimeout ≤ clock := by
  -- only a failure enters OPEN, and it leaves every counter at zero
  have hb : s.breaker = ⟨.opened, 0, 0, 0, l.clock⟩ ∧ s.clock = l.clock := by
    refine ⟨?_, (step_clock hl).1⟩
    obtain ⟨-, ⟨-, rfl⟩ | ⟨c, -, -, rfl⟩ | ⟨c, -, -, rfl⟩⟩ := step_cases hl
    · rcases allow_cases l.clock s₀ hmax with ⟨h', he⟩ | ⟨h', -⟩ | ⟨h', -, he⟩ | ⟨-, he⟩
      · simp [he, h'] at hto
      · exact absurd h' hfrom
      · simp [he, h'] at hto
      · exact absurd (by simpa [he] using hto) hfrom
    · rcases CircuitBreaker.recordSuccess_cases cfg l.clock s₀.breaker with
        ⟨-, he⟩ | ⟨h', -, he⟩ | ⟨-, -, he⟩
      · exact absurd (by simpa [success, he] using hto) hfrom
      · simp [success, he, h'] at hto
      · simp [success, he] at hto
    · rcases CircuitBreaker.recordFailure_cases cfg l.clock s₀.breaker with
        ⟨-, he⟩ | ⟨-, -, he⟩ | ⟨-, -, he⟩
      · simp [failure, he]
      · exact absurd (by simpa [failure, he] using hto) hfrom
      · simp [failure, he]
  obtain ⟨hb, hclock⟩ := hb
  obtain ⟨hopen, hmem, hub⟩ := openedAt_run hmax l.clock h hto (by rw [hb])
    (by rw [hb, hclock]) hfirst
  rw [hb] at hmem hub
  rw [admitsTrial_iff_of_opened hmax hopen]
  constructor
  · intro hat r hr
    have := hub r (List.mem_cons_of_mem _ hr)
    linarith
  · intro hall
    rcases List.mem_cons.mp hmem with heq | hr
    · rw [heq]
      exact hlate
    · exact hall _ hr

/-- With a threshold of two, one stale failure at 9 does not postpone the trial
at 10. -/
theorem trial_after_cooldown_one_stale_failure :
    AdmitsTrial ⟨2, 10, 1, 1⟩ 10
      ⟨⟨.opened, 1, 0, 0, 0⟩, 9, [⟨0, none⟩, ⟨1, none⟩, ⟨2, none⟩], [], 0, 0⟩ := by
  have hreach : Run (step ⟨2, 10, 1, 1⟩) (initial 0)
      [⟨0, .allow⟩, ⟨0, .allow⟩, ⟨0, .allow⟩, ⟨0, .failure ⟨0, none⟩⟩]
      ⟨⟨.closed, 1, 0, 0, 0⟩, 0, [⟨0, none⟩, ⟨1, none⟩, ⟨2, none⟩], [⟨1, none⟩, ⟨2, none⟩], 0, 0⟩ :=
    by decide +kernel
  have htrip : step ⟨2, 10, 1, 1⟩
      ⟨⟨.closed, 1, 0, 0, 0⟩, 0, [⟨0, none⟩, ⟨1, none⟩, ⟨2, none⟩], [⟨1, none⟩, ⟨2, none⟩], 0, 0⟩
      ⟨0, .failure ⟨1, none⟩⟩ =
      some ⟨⟨.opened, 0, 0, 0, 0⟩, 0, [⟨0, none⟩, ⟨1, none⟩, ⟨2, none⟩], [⟨2, none⟩], 0, 0⟩ := by
    decide +kernel
  have hrun : Run (step ⟨2, 10, 1, 1⟩)
      ⟨⟨.opened, 0, 0, 0, 0⟩, 0, [⟨0, none⟩, ⟨1, none⟩, ⟨2, none⟩], [⟨2, none⟩], 0, 0⟩
      [⟨9, .failure ⟨2, none⟩⟩]
      ⟨⟨.opened, 1, 0, 0, 0⟩, 9, [⟨0, none⟩, ⟨1, none⟩, ⟨2, none⟩], [], 0, 0⟩ := by
    decide +kernel
  exact (trial_after_cooldown_iff ⟨2, 10, 1, 1⟩ (by decide) hreach (by decide) htrip rfl hrun
    (by decide) (by decide +kernel) (by decide +kernel)).mpr (by simp [rearms])

/-- **A stale failure postpones recovery.**  Calls 0 and 1 are in flight when call
0 trips the breaker at 0; call 1 fails at 9, which enters OPEN again, and the
request at 10, a full cooldown after the trip, is refused. -/
theorem stale_failure_postpones_recovery :
    ∃ s₀ s t, Run (step ⟨1, 10, 1, 1⟩) (initial 0) [⟨0, .allow⟩, ⟨0, .allow⟩] s₀ ∧
      s₀.breaker.state = .closed ∧ step ⟨1, 10, 1, 1⟩ s₀ ⟨0, .failure ⟨0, none⟩⟩ = some s ∧
      s.breaker.state = .opened ∧ Run (step ⟨1, 10, 1, 1⟩) s [⟨9, .failure ⟨1, none⟩⟩] t ∧
      ¬ AdmitsTrial ⟨1, 10, 1, 1⟩ (0 + 10) t := by
  refine ⟨⟨{}, 0, [⟨0, none⟩, ⟨1, none⟩], [⟨0, none⟩, ⟨1, none⟩], 0, 0⟩,
    ⟨⟨.opened, 0, 0, 0, 0⟩, 0, [⟨0, none⟩, ⟨1, none⟩], [⟨1, none⟩], 0, 0⟩,
    ⟨⟨.opened, 0, 0, 0, 9⟩, 9, [⟨0, none⟩, ⟨1, none⟩], [], 0, 0⟩,
    by decide +kernel, rfl, by decide +kernel, rfl, by decide +kernel, ?_⟩
  unfold AdmitsTrial
  decide +kernel

end BreakerCalls
end EventLedger
