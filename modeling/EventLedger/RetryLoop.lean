import EventLedger.CallOutcomes

/-!
# What the retry loop makes of the attempts

For given outcomes of the attempts, `loopSteps` is the one list of steps the loop
can take: an attempt for each transient outcome, with a sleep between any two,
until one settles the call, none is left, or the backoff overflows.

So the loop does what it is for (`MeantLoop`) unless one of the two exceptions
it raises itself comes in between: the overflow, which takes 1025 lost attempts
with another one to come, and a 4xx whose detail cannot be decoded
(`call_follows_outcomes_iff`).
-/
namespace EventLedger

open Program Prog

/-! ## What the loop is for -/

/-- How the attempts among the steps ended, `none` for one that raised. -/
def attempts (steps : List CallStep) : List (Option AttemptOutcome) :=
  steps.filterMap fun
    | .attempt a => some (some a)
    | .raised => some none
    | _ => none

/-- The attempts end as `o` lays down. -/
def Follows (o : ℕ → AttemptOutcome) (steps : List CallStep) : Prop :=
  ∀ i (h : i < (attempts steps).length), (attempts steps).get ⟨i, h⟩ = some (o i)

/-- The attempts before the one numbered `k`, each with its sleep. -/
def retries (o : ℕ → AttemptOutcome) (k : ℕ) : List CallStep :=
  (List.range k).flatMap fun i => [.attempt (o i), .sleep i]

/-- The attempt `k` is the first that is answered below 500, with this response. -/
structure SettledBy (o : ℕ → AttemptOutcome) (k : ℕ) (resp : HttpResponse) : Prop where
  before : ∀ i < k, (o i).transient
  answer : o k = .response resp
  status : resp.status < 500

/-- What an admitted call is to do when its attempts end as `o` lays down. -/
structure MeantLoop (maxRetries : ℕ) (o : ℕ → AttemptOutcome) (steps : List CallStep)
    (result : CallResult) : Prop where
  /-- The first response below 500 ends it: the attempts up to this one, with a sleep between any
  two, one success for the breaker, and the response or the error of its status. -/
  settled : ∀ k ≤ maxRetries, ∀ resp, SettledBy o k resp →
    steps = .allowed true :: retries o k ++ [.attempt (.response resp), .success] ∧
    result = if resp.status < 400 then .response resp else .clientError resp
  /-- Without one: all attempts, with a sleep between any two, and one failure. -/
  exhausted : (∀ i ≤ maxRetries, (o i).transient) →
    steps = .allowed true :: retries o maxRetries ++ [.attempt (o maxRetries), .failure] ∧
    result = .unavailable

/-- The condition under which it does: the backoff does not overflow, and the error of a 4xx can be
made. -/
structure Unhindered (maxRetries : ℕ) (o : ℕ → AttemptOutcome) : Prop where
  backoff : maxRetries ≤ 1024 ∨ ∃ i ≤ 1024, ¬ (o i).transient
  detail : ∀ k ≤ maxRetries, ∀ resp, SettledBy o k resp → 400 ≤ resp.status →
    resp.safeJsonRaises = false

/-! ## The steps for given outcomes -/

/-- What a response below 500 settles the call with. -/
def AttemptOutcome.settled : AttemptOutcome → Option CallResult
  | .response resp =>
    if resp.status < 400 then some (.response resp)
    else if resp.status < 500 then
      some (if resp.safeJsonRaises then .raised else .clientError resp)
    else none
  | _ => none

/-- The steps of the loop and its result with `left` attempts to go, the next ending as `o 0`. -/
def loopSteps (maxRetries : ℕ) : (ℕ → AttemptOutcome) → ℕ → List CallStep × CallResult
  | _, 0 => ([.failure], .unavailable)
  | o, left + 1 =>
    match (o 0).settled with
    | some result => ([.attempt (o 0), .success], result)
    | none =>
      let rest := loopSteps maxRetries (fun i => o (i + 1)) left
      if maxRetries - left < maxRetries then
        if backoffOverflows (maxRetries - left) then ([.attempt (o 0)], .raised)
        else (.attempt (o 0) :: .sleep (maxRetries - left) :: rest.1, rest.2)
      else (.attempt (o 0) :: rest.1, rest.2)

theorem settled_of_transient {a : AttemptOutcome} (h : a.transient) : a.settled = none := by
  cases a with
  | response resp =>
    have hstatus : 500 ≤ resp.status := of_decide_eq_true h
    simp only [AttemptOutcome.settled]
    rw [if_neg (by omega), if_neg (by omega)]
  | _ => rfl

/-- An attempt that is not transient is a response below 500. -/
theorem exists_response_of_not_transient {a : AttemptOutcome} (h : ¬ a.transient) :
    ∃ resp, a = .response resp ∧ resp.status < 500 := by
  cases a with
  | response resp => exact ⟨resp, rfl, by simpa [AttemptOutcome.transient] using h⟩
  | _ => exact absurd rfl h

theorem settled_response {resp : HttpResponse} (h : resp.status < 500) :
    (AttemptOutcome.response resp).settled = some (if resp.status < 400 then .response resp
      else if resp.safeJsonRaises then .raised else .clientError resp) := by
  simp only [AttemptOutcome.settled, if_pos h]
  split
  · rfl
  · rfl

section
variable {maxRetries left k : ℕ} {o : ℕ → AttemptOutcome} {result : CallResult}

/-- A transient attempt that is not the last is followed by the backoff. -/
theorem loopSteps_transient (h : (o 0).transient) (hlt : maxRetries - left < maxRetries)
    (h1024 : maxRetries - left < 1024) :
    loopSteps maxRetries o (left + 1) =
      (.attempt (o 0) :: .sleep (maxRetries - left) ::
        (loopSteps maxRetries (fun i => o (i + 1)) left).1,
        (loopSteps maxRetries (fun i => o (i + 1)) left).2) := by
  have hfits : ¬ backoffOverflows (maxRetries - left) = true := by
    simpa [backoffOverflows] using h1024
  rw [loopSteps, settled_of_transient h]
  simp only [if_pos hlt, if_neg hfits]

/-- The steps of the attempts from the one numbered `first` on. -/
def retriesFrom (first : ℕ) (o : ℕ → AttemptOutcome) (k : ℕ) : List CallStep :=
  (List.range k).flatMap fun i => [.attempt (o i), .sleep (first + i)]

theorem retriesFrom_succ (first : ℕ) :
    retriesFrom first o (k + 1) =
      .attempt (o 0) :: .sleep first :: retriesFrom (first + 1) (fun i => o (i + 1)) k := by
  rw [retriesFrom, retriesFrom, List.range_succ_eq_map, List.flatMap_cons, List.flatMap_map]
  refine congrArg (_ :: _ :: ·) (List.flatMap_congr fun i _ => ?_)
  rw [Nat.succ_eq_add_one, Nat.add_assoc first 1 i, Nat.add_comm 1 i]

theorem retriesFrom_zero_left : retriesFrom 0 o k = retries o k := by
  simp [retriesFrom, retries]

/-- **Settled.**  By induction on the transient attempts before. -/
theorem loopSteps_settled (hleft : k < left) (hmax : left ≤ maxRetries + 1)
    (h1024 : maxRetries + 1 - left + k ≤ 1024) (hbefore : ∀ i < k, (o i).transient)
    (hk : (o k).settled = some result) :
    loopSteps maxRetries o left =
      (retriesFrom (maxRetries + 1 - left) o k ++ [.attempt (o k), .success], result) := by
  induction k generalizing o left with
  | zero =>
    obtain ⟨left, rfl⟩ := Nat.exists_eq_add_of_lt hleft
    simp [loopSteps, hk, retriesFrom]
  | succ k ih =>
    obtain ⟨left, rfl⟩ := Nat.exists_eq_succ_of_ne_zero (show left ≠ 0 by omega)
    have hfirst : maxRetries + 1 - (left + 1) = maxRetries - left := by omega
    have hnext : maxRetries + 1 - left = maxRetries - left + 1 := by omega
    have hrest : loopSteps maxRetries (fun i => o (i + 1)) left =
        (retriesFrom (maxRetries + 1 - left) (fun i => o (i + 1)) k ++
          [.attempt (o (k + 1)), .success], result) :=
      ih (by omega) (by omega) (by omega) (fun i hi => hbefore (i + 1) (by omega)) hk
    rw [loopSteps_transient (hbefore 0 (by omega)) (by omega) (by omega), hrest,
      retriesFrom_succ, hfirst, hnext]
    rfl

/-- **Exhausted.**  By induction on the attempts left; the last one is not followed by a sleep. -/
theorem loopSteps_exhausted (hmax : left ≤ maxRetries) (h1024 : maxRetries ≤ 1024)
    (hall : ∀ i ≤ left, (o i).transient) :
    loopSteps maxRetries o (left + 1) =
      (retriesFrom (maxRetries - left) o left ++ [.attempt (o left), .failure], .unavailable) := by
  induction left generalizing o with
  | zero =>
    have hnone : (o 0).settled = none := settled_of_transient (hall 0 le_rfl)
    simp [loopSteps, hnone, retriesFrom]
  | succ left ih =>
    have hrest := ih (o := fun i => o (i + 1)) (by omega) fun i hi => hall (i + 1) (by omega)
    have hnext : maxRetries - left = maxRetries - (left + 1) + 1 := by omega
    rw [loopSteps_transient (hall 0 (by omega)) (by omega) (by omega), hrest, retriesFrom_succ,
      hnext]
    rfl

/-- **Overflow.**  By induction on the attempts up to the one numbered 1024. -/
theorem loopSteps_overflows (hmax : left ≤ maxRetries) (h1024 : 1024 < maxRetries)
    (hfirst : maxRetries - left + k = 1024) (hlost : ∀ i ≤ k, (o i).transient) :
    (loopSteps maxRetries o (left + 1)).2 = .raised := by
  induction k generalizing o left with
  | zero =>
    have hover : backoffOverflows (maxRetries - left) = true := by
      simp only [backoffOverflows, decide_eq_true_eq]
      omega
    rw [loopSteps, settled_of_transient (hlost 0 le_rfl)]
    simp only [if_pos (show maxRetries - left < maxRetries by omega), if_pos hover]
  | succ k ih =>
    obtain ⟨left, rfl⟩ := Nat.exists_eq_succ_of_ne_zero (show left ≠ 0 by omega)
    rw [loopSteps_transient (hlost 0 (by omega)) (by omega) (by omega)]
    exact ih (by omega) (by omega) fun i hi => hlost (i + 1) (by omega)

end

/-! ## The loop takes these steps -/

section
variable {o : ℕ → AttemptOutcome} {steps : List CallStep}

theorem follows_cons_attempt {a : AttemptOutcome} :
    Follows o (.attempt a :: steps) ↔ a = o 0 ∧ Follows (fun i => o (i + 1)) steps := by
  have hattempts : attempts (.attempt a :: steps) = some a :: attempts steps := rfl
  simp only [Follows, hattempts]
  constructor
  · intro h
    refine ⟨Option.some.inj (h 0 (by simp)), ?_⟩
    intro i hi
    exact h (i + 1) (by simpa using hi)
  · rintro ⟨rfl, h⟩ i hi
    cases i with
    | zero => rfl
    | succ i => exact h i (by simpa using hi)

theorem not_follows_cons_raised : ¬ Follows o (.raised :: steps) := by
  intro h
  have hfirst := h 0 (by simp [attempts])
  simp [attempts] at hfirst

variable {maxRetries n : ℕ} {result : CallResult}

/-- **The loop.**  If its attempts end as `o` lays down, its steps and its result are those of
`loopSteps`.  By induction on the retries. -/
theorem Ends.eq_loopSteps (h : Ends maxRetries n steps result) (hn : n ≤ maxRetries)
    (hfollows : Follows o steps) :
    (steps, result) = loopSteps maxRetries o (maxRetries - n + 1) := by
  -- the number of the attempt, as `loopSteps` counts
  have hnumber : maxRetries - (maxRetries - n) = n := by omega
  induction h generalizing o with
  | exhausted a ha =>
    obtain ⟨rfl, -⟩ := follows_cons_attempt.mp hfollows
    simp [loopSteps, settled_of_transient ha]
  | success n resp hstatus =>
    obtain ⟨hresp, -⟩ := follows_cons_attempt.mp hfollows
    rw [loopSteps, ← hresp, settled_response (by omega), if_pos hstatus]
  | refused n resp h400 h500 hdecoded =>
    obtain ⟨hresp, -⟩ := follows_cons_attempt.mp hfollows
    rw [loopSteps, ← hresp, settled_response h500, if_neg (not_lt.mpr h400), hdecoded]
    rfl
  | undecodable n resp h400 h500 hraises =>
    obtain ⟨hresp, -⟩ := follows_cons_attempt.mp hfollows
    rw [loopSteps, ← hresp, settled_response h500, if_neg (not_lt.mpr h400), hraises]
    rfl
  | raised n => exact absurd hfollows not_follows_cons_raised
  | overflows n a ha hlt h1024 =>
    obtain ⟨rfl, -⟩ := follows_cons_attempt.mp hfollows
    have hover : backoffOverflows n = true := decide_eq_true h1024
    rw [loopSteps, settled_of_transient ha]
    simp only [hnumber, if_pos hlt, if_pos hover]
  | retried n a ha hlt h1024 steps result h ih =>
    obtain ⟨rfl, hrest⟩ := follows_cons_attempt.mp hfollows
    have hleft : maxRetries - n = maxRetries - (n + 1) + 1 := by omega
    rw [loopSteps_transient ha (by omega) (by omega), hnumber, hleft,
      ← ih (by omega) hrest (by omega)]

end

section
variable {req : GatewayProg Outcome} {maxRetries left : ℕ} {o : ℕ → AttemptOutcome}

/-- Every attempt can end in every way. -/
theorem attemptOnce_trace (hreq : OneOutcome req) (hany : ∀ out, ∃ es, req.Trace es out)
    (a : AttemptOutcome) :
    ∃ es, (attemptOnce req).Trace es a.outcome ∧ Adds es (.attempt a) := by
  have hsent : ∀ out, ∃ es, (attemptOnce req).Trace es out ∧ Adds es out.step := by
    intro out
    obtain ⟨es, hes⟩ := hany out
    refine ⟨⟨.fault, none⟩ :: ⟨.fault, none⟩ :: es, .act (.act hes), fun rest => ?_⟩
    simp [loopEvent, stepsFrom, ensures_iff.mp hreq es out hes]
  cases a with
  | fault mode =>
    cases mode with
    | error => exact ⟨[⟨.fault, some .error⟩], .act (.refl _), fun rest => rfl⟩
    | timeout =>
      exact ⟨[⟨.fault, some .timeout⟩, ⟨.fault, some .timeout⟩], .act (.act (.refl _)),
        fun rest => rfl⟩
  | transportError => exact hsent .transportError
  | response resp => exact hsent (.response resp)

/-- Every sequence of outcomes is one that the attempts of some run of the loop follow. -/
theorem retryLoop_trace (hreq : OneOutcome req) (hany : ∀ out, ∃ es, req.Trace es out) :
    ∃ es result, (retryLoop req maxRetries left).Trace es result ∧ Follows o (gatewaySteps es) := by
  have hnone : ∀ o, Follows o [] := fun o i hi => absurd hi (Nat.not_lt_zero i)
  induction left generalizing o with
  | zero => exact ⟨_, _, .act (r := ()) (.refl _), hnone _⟩
  | succ left ih =>
    obtain ⟨es, htrace, hadds⟩ := attemptOnce_trace hreq hany (o 0)
    have hafter : ∃ es' result, (afterAttempt req maxRetries left (o 0).outcome).Trace es' result ∧
        Follows (fun i => o (i + 1)) (gatewaySteps es') := by
      by_cases ha : (o 0).transient
      · obtain ⟨es', result, hrest, hfollows⟩ := ih (o := fun i => o (i + 1))
        rw [afterAttempt_transient ha, backoffAndRetry]
        split
        · split
          · exact ⟨[], _, .refl _, hnone _⟩
          · exact ⟨_, result, .act (r := ()) hrest, hfollows⟩
        · exact ⟨es', result, hrest, hfollows⟩
      · obtain ⟨resp, hresp, hstatus⟩ := exists_response_of_not_transient ha
        obtain ⟨result, -, heq⟩ := @afterAttempt_settled req maxRetries left resp hstatus
        rw [hresp, AttemptOutcome.outcome, heq]
        exact ⟨_, _, .act (r := ()) (.refl _), hnone _⟩
    obtain ⟨es', result, hrest, hfollows⟩ := hafter
    rw [retryLoop_succ]
    refine ⟨es ++ es', result, trace_bind.mpr ⟨es, _, es', htrace, hrest, rfl⟩, ?_⟩
    rw [gatewaySteps_append hadds, follows_cons_attempt]
    exact ⟨rfl, hfollows⟩

end

/-! ## The calls of the client -/

theorem ClientCall.request_trace (c : ClientCall) (out : Outcome) :
    ∃ es, c.request.Trace es out := by
  cases c with
  | post accountId payload =>
    exact ⟨[⟨.send accountId payload, some 0⟩, ⟨.receive 0, out⟩], .act (.act (.refl _))⟩
  | get path => exact ⟨_, .act (.refl _)⟩

/-- Whatever the outcomes, some admitted call meets them. -/
theorem ClientCall.exists_run (maxRetries : ℕ) (c : ClientCall) (o : ℕ → AttemptOutcome) :
    ∃ es result, (c.run maxRetries).Trace es result ∧ Answers (callSteps es) true ∧
      Follows o (callSteps es) := by
  have hloop : ∃ es result, (retryLoop c.request maxRetries (maxRetries + 1)).Trace es result ∧
      Follows o (gatewaySteps es) := retryLoop_trace c.request_outcome c.request_trace
  obtain ⟨es, result, htrace, hfollows⟩ := hloop
  have hcall : (call c.request maxRetries).Trace (⟨.allowRequest, true⟩ :: es) result :=
    trace_act.mpr ⟨true, es, rfl, htrace⟩
  refine ⟨_, result, run_trace.mpr ⟨_, rfl, hcall⟩, ?_, ?_⟩
  · rw [callSteps_lift]
    rfl
  · rw [callSteps_lift]
    exact hfollows

section
variable {maxRetries : ℕ} {c : ClientCall} {o : ℕ → AttemptOutcome}
  {es : List (Event ApiOp ApiOp.Ret)} {result : CallResult}

/-- The steps and the result of a call that is admitted. -/
theorem ClientCall.run_steps (h : (c.run maxRetries).Trace es result)
    (hadmitted : Answers (callSteps es) true) (hfollows : Follows o (callSteps es)) :
    ∃ steps, callSteps es = .allowed true :: steps ∧
      (steps, result) = loopSteps maxRetries o (maxRetries + 1) := by
  obtain ⟨steps, hsteps, hends⟩ :=
    (ensures_iff.mp (c.run_ends maxRetries) es result h).of_allowed hadmitted
  rw [hsteps] at hfollows
  exact ⟨steps, hsteps, hends.eq_loopSteps (Nat.zero_le _) hfollows⟩

/-- The backoff before the attempt that settles the call has fitted: one that does not would have
come after a transient attempt. -/
theorem SettledBy.le_limit {k : ℕ} {resp : HttpResponse} (h : SettledBy o k resp)
    (hk : k ≤ maxRetries) (hbackoff : maxRetries ≤ 1024 ∨ ∃ i ≤ 1024, ¬ (o i).transient) :
    k ≤ 1024 := by
  rcases hbackoff with hmax | ⟨i, hi, hlost⟩
  · exact hk.trans hmax
  · by_contra hlt
    exact hlost (h.before i (by omega))

/-- **What is meant.**  If the backoff fits, and the detail of a 4xx can be decoded, the steps of
the loop are the ones that are meant. -/
theorem ClientCall.run_meant (h : (c.run maxRetries).Trace es result)
    (hadmitted : Answers (callSteps es) true) (hfollows : Follows o (callSteps es))
    (hunhindered : Unhindered maxRetries o) : MeantLoop maxRetries o (callSteps es) result := by
  obtain ⟨steps, hsteps, hloop⟩ := ClientCall.run_steps h hadmitted hfollows
  rw [hsteps]
  constructor
  · intro k hk resp hsettled
    have h1024 : k ≤ 1024 := hsettled.le_limit hk hunhindered.backoff
    have hresult : (o k).settled =
        some (if resp.status < 400 then .response resp else .clientError resp) := by
      rw [hsettled.answer, settled_response hsettled.status]
      split
      · rfl
      · rename_i h400
        rw [hunhindered.detail k hk resp hsettled (not_lt.mp h400)]
        rfl
    rw [loopSteps_settled (by omega) le_rfl (by omega) hsettled.before hresult, Nat.sub_self,
      retriesFrom_zero_left, hsettled.answer] at hloop
    cases hloop
    exact ⟨rfl, rfl⟩
  · intro hall
    have h1024 : maxRetries ≤ 1024 := by
      rcases hunhindered.backoff with hmax | ⟨i, hi, hlost⟩
      · exact hmax
      · by_contra hlt
        exact hlost (hall i (by omega))
    rw [loopSteps_exhausted le_rfl h1024 hall, Nat.sub_self, retriesFrom_zero_left] at hloop
    cases hloop
    exact ⟨rfl, rfl⟩

/-- What is meant never ends in another exception. -/
theorem MeantLoop.result_ne {steps : List CallStep} (h : MeantLoop maxRetries o steps result) :
    result ≠ .raised := by
  by_cases hall : ∀ i ≤ maxRetries, (o i).transient
  · rw [(h.exhausted hall).2]
    simp
  · -- the first attempt that is not transient settles the call
    simp only [not_forall] at hall
    have hfirst := Nat.find_spec hall
    obtain ⟨hmax, hlost⟩ := hfirst
    obtain ⟨resp, hresp, hstatus⟩ := exists_response_of_not_transient hlost
    have hbefore : ∀ i < Nat.find hall, (o i).transient := by
      intro i hi
      by_contra hi'
      exact Nat.find_min hall hi ⟨by omega, hi'⟩
    rw [(h.settled _ hmax resp ⟨hbefore, hresp, hstatus⟩).2]
    split
    · simp
    · simp

/-- A loop that is hindered ends in another exception. -/
theorem ClientCall.run_hindered (h : (c.run maxRetries).Trace es result)
    (hadmitted : Answers (callSteps es) true) (hfollows : Follows o (callSteps es))
    (hhindered : ¬ Unhindered maxRetries o) : result = .raised := by
  obtain ⟨steps, hsteps, hloop⟩ := ClientCall.run_steps h hadmitted hfollows
  by_cases hbackoff : maxRetries ≤ 1024 ∨ ∃ i ≤ 1024, ¬ (o i).transient
  · -- some 4xx cannot be decoded
    have hdetail : ∃ k ≤ maxRetries, ∃ resp, SettledBy o k resp ∧ 400 ≤ resp.status ∧
        resp.safeJsonRaises = true := by
      by_contra hnone
      refine hhindered ⟨hbackoff, fun k hk resp hsettled h400 => ?_⟩
      by_contra hraises
      exact hnone ⟨k, hk, resp, hsettled, h400, by simpa using hraises⟩
    obtain ⟨k, hk, resp, hsettled, h400, hraises⟩ := hdetail
    have h1024 : k ≤ 1024 := hsettled.le_limit hk hbackoff
    have hresult : (o k).settled = some .raised := by
      rw [hsettled.answer, settled_response hsettled.status, if_neg (not_lt.mpr h400), hraises]
      rfl
    rw [loopSteps_settled (by omega) le_rfl (by omega) hsettled.before hresult] at hloop
    exact (Prod.mk.inj hloop).2
  · -- the attempts numbered 0 to 1024 are all lost
    simp only [not_or, not_le, not_exists, not_and, not_not] at hbackoff
    obtain ⟨hmax, hlost⟩ := hbackoff
    have hover : (loopSteps maxRetries o (maxRetries + 1)).2 = .raised :=
      loopSteps_overflows (k := 1024) le_rfl hmax (by omega) hlost
    rw [← hloop] at hover
    exact hover

/-- Whatever hinders the loop, some call ends in another exception. -/
theorem ClientCall.exists_hindered (c : ClientCall) (hhindered : ¬ Unhindered maxRetries o) :
    ∃ es result, (c.run maxRetries).Trace es result ∧ Answers (callSteps es) true ∧
      Follows o (callSteps es) ∧ ¬ MeantLoop maxRetries o (callSteps es) result := by
  obtain ⟨es, result, htrace, hadmitted, hfollows⟩ := c.exists_run maxRetries o
  refine ⟨es, result, htrace, hadmitted, hfollows, fun hmeant => hmeant.result_ne ?_⟩
  exact ClientCall.run_hindered htrace hadmitted hfollows hhindered

end

/-- Two retries, the second of which is answered. -/
example : (loopSteps 2 (fun i => if i < 2 then .fault .timeout else .response ⟨404, .text ""⟩) 3).1
    = [.attempt (.fault .timeout), .sleep 0, .attempt (.fault .timeout), .sleep 1,
      .attempt (.response ⟨404, .text ""⟩), .success] := rfl

end EventLedger
