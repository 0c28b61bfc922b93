import EventLedger.GatewayApi

/-!
# What a call of the client reports, and what comes of it

A call's steps are read off its events: the breaker's permission, the attempts
and how each ended, the sleeps between them, the report to the breaker.  An
attempt begins with the two readings of the injected fault, and ends there if
the fault is armed; otherwise it ends with the outcome of the request.  `Ends` is
the grammar of the steps of `_call`, one rule for each way out of the retry loop,
and everything said here of calls is an induction over it.

Two kinds of exceptions leave the loop without a report, so that the trial slot
the call took is never given back: one of a request that is neither a timeout
nor a transport error, and the overflow of the backoff (`call_reports_iff`).
-/
namespace EventLedger

open Program Prog

/-! ## The steps of a call -/

/-- How an attempt ends, short of an exception that leaves the loop. -/
inductive AttemptOutcome where
  /-- `httpx.TimeoutException` or `httpx.TransportError`. -/
  | transportError
  | fault (mode : Fault)
  | response (resp : HttpResponse)

/-- The attempt is worth another one: it timed out, was lost, or met a failing server. -/
def AttemptOutcome.transient : AttemptOutcome → Bool
  | .response resp => 500 ≤ resp.status
  | _ => true

/-- A step of a call. -/
inductive CallStep where
  /-- The breaker's answer. -/
  | allowed (ok : Bool)
  | attempt (a : AttemptOutcome)
  /-- An attempt that any other exception ends. -/
  | raised
  | sleep (attempt : ℕ)
  | success
  | failure

/-- The outcome of a request, as the step it completes. -/
def Outcome.step : Outcome → CallStep
  | .response resp => .attempt (.response resp)
  | .transportError => .attempt .transportError
  | .raised => .raised

/-- What an operation is to a call: a reading of the fault, or a step. -/
inductive LoopEvent where
  | fault (mode : Option Fault)
  | step (s : CallStep)

/-- An operation as an event of the call; a URL that is refused ends the attempt at once. -/
def loopEvent : Event GatewayOp GatewayOp.Ret → Option LoopEvent
  | ⟨.fault, mode⟩ => some (.fault mode)
  | ⟨.allowRequest, ok⟩ => some (.step (.allowed ok))
  | ⟨.send _ _, none⟩ => some (.step .raised)
  | ⟨.receive _, o⟩ => some (.step o.step)
  | ⟨.sleepBackoff attempt, _⟩ => some (.step (.sleep attempt))
  | ⟨.recordSuccess, _⟩ => some (.step .success)
  | ⟨.recordFailure, _⟩ => some (.step .failure)
  | _ => none

/-- The same among the operations of all endpoints. -/
def apiLoopEvent : Event ApiOp ApiOp.Ret → Option LoopEvent
  | ⟨.core op, r⟩ => loopEvent ⟨op, r⟩
  | ⟨.fetch _, o⟩ => some (.step o.step)
  | _ => none

/-- The steps the events make up; `checked` is whether the fault has been read once in the attempt
that is under way. -/
def stepsFrom : (checked : Bool) → List LoopEvent → List CallStep
  | _, [] => []
  | false, .fault mode :: es =>
    if mode = some .error then .attempt (.fault .error) :: stepsFrom false es
    else stepsFrom true es
  | true, .fault mode :: es =>
    if mode = some .timeout then .attempt (.fault .timeout) :: stepsFrom false es
    else stepsFrom false es
  | _, .step s :: es => s :: stepsFrom false es

/-- The steps of a call. -/
def callSteps (es : List (Event ApiOp ApiOp.Ret)) : List CallStep :=
  stepsFrom false (es.filterMap apiLoopEvent)

/-- The same for the operations of a thread of `submit_event`. -/
def gatewaySteps (es : List (Event GatewayOp GatewayOp.Ret)) : List CallStep :=
  stepsFrom false (es.filterMap loopEvent)

/-- How many outcomes the steps report to the breaker. -/
def reports (steps : List CallStep) : ℕ :=
  steps.countP fun
    | .success => true
    | .failure => true
    | _ => false

/-- The outcomes of the requests among the steps, in order. -/
def outcomes (steps : List CallStep) : List Outcome :=
  steps.filterMap fun
    | .attempt (.response resp) => some (.response resp)
    | .attempt .transportError => some .transportError
    | .raised => some .raised
    | _ => none

/-- A step is an event of its own, or an injected fault. -/
theorem mem_stepsFrom {s : CallStep} {checked : Bool} {es : List LoopEvent}
    (h : s ∈ stepsFrom checked es) : .step s ∈ es ∨ ∃ mode, s = .attempt (.fault mode) := by
  induction es generalizing checked with
  | nil => cases checked <;> cases h
  | cons e es ih =>
    have hrest : ∀ {checked}, s ∈ stepsFrom checked es →
        .step s ∈ e :: es ∨ ∃ mode, s = .attempt (.fault mode) :=
      fun h => (ih h).imp_left (List.mem_cons_of_mem _)
    cases e with
    | fault mode =>
      cases checked with
      | false =>
        rw [stepsFrom] at h
        split at h
        · rcases List.mem_cons.mp h with rfl | h
          · exact Or.inr ⟨_, rfl⟩
          · exact hrest h
        · exact hrest h
      | true =>
        rw [stepsFrom] at h
        split at h
        · rcases List.mem_cons.mp h with rfl | h
          · exact Or.inr ⟨_, rfl⟩
          · exact hrest h
        · exact hrest h
    | step s' =>
      rw [stepsFrom] at h
      rcases List.mem_cons.mp h with rfl | h
      · exact Or.inl List.mem_cons_self
      · exact hrest h

/-- A response comes from the event that brought it. -/
theorem step_mem_of_outcome {es : List LoopEvent} {resp : HttpResponse}
    (h : .response resp ∈ outcomes (stepsFrom false es)) :
    .step (.attempt (.response resp)) ∈ es := by
  obtain ⟨s, hs, hout⟩ := List.mem_filterMap.mp h
  have hstep : s = .attempt (.response resp) := by
    cases s with
    | attempt a =>
      cases a with
      | response resp' =>
        cases hout
        rfl
      | _ => cases hout
    | _ => cases hout
  subst hstep
  rcases mem_stepsFrom hs with h | ⟨mode, h⟩
  · exact h
  · cases h

/-- How many attempts were worth another one. -/
def lostAttempts (steps : List CallStep) : ℕ :=
  steps.countP fun
    | .attempt a => a.transient
    | _ => false

/-- The 1025 attempts numbered 0 to 1024 are lost and another one is due: the backoff before it
overflows. -/
def Overflows (maxRetries : ℕ) (steps : List CallStep) : Prop :=
  1024 < maxRetries ∧ 1024 < lostAttempts steps

/-- The steps of the retry loop from the attempt numbered `n` on, one rule for each way out of
it. -/
inductive Ends (maxRetries : ℕ) : ℕ → List CallStep → CallResult → Prop
  | exhausted (a : AttemptOutcome) (ha : a.transient) :
      Ends maxRetries maxRetries [.attempt a, .failure] .unavailable
  | success (n : ℕ) (resp : HttpResponse) (hstatus : resp.status < 400) :
      Ends maxRetries n [.attempt (.response resp), .success] (.response resp)
  | refused (n : ℕ) (resp : HttpResponse) (h400 : 400 ≤ resp.status) (h500 : resp.status < 500)
      (hdecoded : resp.safeJsonRaises = false) :
      Ends maxRetries n [.attempt (.response resp), .success] (.clientError resp)
  | undecodable (n : ℕ) (resp : HttpResponse) (h400 : 400 ≤ resp.status)
      (h500 : resp.status < 500) (hraises : resp.safeJsonRaises = true) :
      Ends maxRetries n [.attempt (.response resp), .success] .raised
  | raised (n : ℕ) : Ends maxRetries n [.raised] .raised
  | overflows (n : ℕ) (a : AttemptOutcome) (ha : a.transient) (hlt : n < maxRetries)
      (h1024 : 1024 ≤ n) : Ends maxRetries n [.attempt a] .raised
  | retried (n : ℕ) (a : AttemptOutcome) (ha : a.transient) (hlt : n < maxRetries)
      (h1024 : n < 1024) (steps : List CallStep) (result : CallResult)
      (h : Ends maxRetries (n + 1) steps result) :
      Ends maxRetries n (.attempt a :: .sleep n :: steps) result

/-- The breaker's answer to a call, which comes first. -/
def Answers (steps : List CallStep) (ok : Bool) : Prop := steps.head? = some (.allowed ok)

/-- The steps of `_call`: refused by the breaker, or admitted and gone through the loop. -/
def CallEnds (maxRetries : ℕ) (steps : List CallStep) (result : CallResult) : Prop :=
  (steps = [.allowed false] ∧ result = .unavailable) ∨
    ∃ rest, steps = .allowed true :: rest ∧ Ends maxRetries 0 rest result

/-! ## The steps of `_call` -/

section
variable {req : GatewayProg Outcome} {maxRetries left : ℕ}

/-- What an attempt's events add to the steps. -/
def Adds (es : List (Event GatewayOp GatewayOp.Ret)) (step : CallStep) : Prop :=
  ∀ rest, stepsFrom false (es.filterMap loopEvent ++ rest) = step :: stepsFrom false rest

theorem gatewaySteps_append {es es' : List (Event GatewayOp GatewayOp.Ret)} {step : CallStep}
    (h : Adds es step) : gatewaySteps (es ++ es') = step :: gatewaySteps es' := by
  rw [gatewaySteps, List.filterMap_append, h]
  rfl

/-- A request has one outcome. -/
def OneOutcome (req : GatewayProg Outcome) : Prop :=
  req.Ensures fun out es => es.filterMap loopEvent = [.step out.step]

theorem request_outcome (accountId : String) (payload : TxPayload) :
    OneOutcome (request accountId payload) := by
  refine ensures_act.mpr fun attempt => ?_
  cases attempt with
  | none => exact ensures_done.mpr rfl
  | some attempt => exact ensures_act.mpr fun out => ensures_done.mpr rfl

theorem receive_outcome (attempt : ℕ) : OneOutcome (GatewayProg.receive attempt) :=
  ensures_act.mpr fun _ => ensures_done.mpr rfl

/-- The outcome an attempt ends in, as `_call` distinguishes them. -/
def AttemptOutcome.outcome : AttemptOutcome → Outcome
  | .response resp => .response resp
  | _ => .transportError

/-- An attempt is one step: the fault that is armed, or the outcome of the request. -/
theorem attemptOnce_adds (hreq : OneOutcome req) :
    (attemptOnce req).Ensures fun out es =>
      (∃ a, out = a.outcome ∧ Adds es (.attempt a)) ∨ (out = .raised ∧ Adds es .raised) := by
  simp only [attemptOnce, GatewayProg.fault, perform_bind, pure_eq]
  refine ensures_act.mpr fun fault₁ => ?_
  split
  · rename_i herror
    refine ensures_done.mpr (Or.inl ⟨.fault .error, rfl, fun rest => ?_⟩)
    rw [herror]
    rfl
  · rename_i herror
    refine ensures_act.mpr fun fault₂ => ?_
    split
    · rename_i htimeout
      refine ensures_done.mpr (Or.inl ⟨.fault .timeout, rfl, fun rest => ?_⟩)
      simp [loopEvent, stepsFrom, herror, htimeout]
    · rename_i htimeout
      refine hreq.mono fun out es hes => ?_
      have hadds : Adds (⟨.fault, fault₁⟩ :: ⟨.fault, fault₂⟩ :: es) out.step := by
        intro rest
        simp [loopEvent, stepsFrom, herror, htimeout, hes]
      cases out with
      | response resp => exact Or.inl ⟨.response resp, rfl, hadds⟩
      | transportError => exact Or.inl ⟨.transportError, rfl, hadds⟩
      | raised => exact Or.inr ⟨rfl, hadds⟩

/-- What the loop does once an attempt is over. -/
def afterAttempt (req : GatewayProg Outcome) (maxRetries left : ℕ) :
    Outcome → GatewayProg CallResult
  | .raised => return .raised
  | .transportError =>
    backoffAndRetry maxRetries (maxRetries - left) (retryLoop req maxRetries left)
  | .response resp =>
    if resp.status < 400 then do
      GatewayProg.recordSuccess
      return .response resp
    else if resp.status < 500 then do
      GatewayProg.recordSuccess
      return if resp.safeJsonRaises then .raised else .clientError resp
    else backoffAndRetry maxRetries (maxRetries - left) (retryLoop req maxRetries left)

theorem retryLoop_succ :
    retryLoop req maxRetries (left + 1) =
      attemptOnce req >>= fun out => afterAttempt req maxRetries left out := by
  rw [retryLoop]
  congr 1

/-- A transient attempt is followed by the backoff and the rest of the loop. -/
theorem afterAttempt_transient {a : AttemptOutcome} (h : a.transient) :
    afterAttempt req maxRetries left a.outcome =
      backoffAndRetry maxRetries (maxRetries - left) (retryLoop req maxRetries left) := by
  cases a with
  | response resp =>
    have hstatus : 500 ≤ resp.status := of_decide_eq_true h
    simp only [AttemptOutcome.outcome, afterAttempt]
    rw [if_neg (by omega), if_neg (by omega)]
  | _ => rfl

/-- An attempt that is answered below 500 settles the call. -/
theorem afterAttempt_settled {resp : HttpResponse} (h : resp.status < 500) :
    ∃ result, Ends maxRetries (maxRetries - left) [.attempt (.response resp), .success] result ∧
      afterAttempt req maxRetries left (.response resp) =
        GatewayProg.recordSuccess >>= fun _ => return result := by
  simp only [afterAttempt]
  split
  · rename_i h400
    exact ⟨_, .success _ resp h400, rfl⟩
  · rename_i h400
    refine ⟨_, ?_, rfl⟩
    split
    · rename_i hraises
      exact .undecodable _ resp (not_lt.mp h400) h hraises
    · rename_i hraises
      exact .refused _ resp (not_lt.mp h400) h (Bool.not_eq_true _ ▸ hraises)

/-- An iteration of the loop, whatever a transient attempt is followed by. -/
theorem iteration_ends (hreq : OneOutcome req)
    (hrest : ∀ a : AttemptOutcome, a.transient →
      (backoffAndRetry maxRetries (maxRetries - left) (retryLoop req maxRetries left)).Ensures
        fun result es =>
          Ends maxRetries (maxRetries - left) (.attempt a :: gatewaySteps es) result) :
    (retryLoop req maxRetries (left + 1)).Ensures fun result es =>
      Ends maxRetries (maxRetries - left) (gatewaySteps es) result := by
  rw [retryLoop_succ]
  refine Ensures.bind (attemptOnce_adds hreq) fun out es hes => ?_
  rcases hes with ⟨a, rfl, hadds⟩ | ⟨rfl, hadds⟩
  · simp only [gatewaySteps_append hadds]
    by_cases ha : a.transient
    · rw [afterAttempt_transient ha]
      exact hrest a ha
    · cases a with
      | response resp =>
        obtain ⟨result, hends, heq⟩ := @afterAttempt_settled req maxRetries left resp
          (by simpa [AttemptOutcome.transient] using ha)
        rw [AttemptOutcome.outcome, heq]
        exact ensures_act.mpr fun _ => ensures_done.mpr hends
      | _ => exact absurd rfl ha
  · refine ensures_done.mpr ?_
    rw [gatewaySteps_append hadds]
    exact .raised _

/-- **The retry loop.**  By induction on the attempts that are left after the next one. -/
theorem retryLoop_ends (hreq : OneOutcome req) (hleft : left ≤ maxRetries) :
    (retryLoop req maxRetries (left + 1)).Ensures fun result es =>
      Ends maxRetries (maxRetries - left) (gatewaySteps es) result := by
  induction left with
  | zero =>
    refine iteration_ends hreq fun a ha => ?_
    rw [backoffAndRetry, Nat.sub_zero, if_neg (lt_irrefl maxRetries)]
    exact ensures_act.mpr fun _ => ensures_done.mpr (.exhausted a ha)
  | succ left ih =>
    refine iteration_ends hreq fun a ha => ?_
    rw [backoffAndRetry, if_pos (show maxRetries - (left + 1) < maxRetries by omega)]
    split
    · rename_i hoverflows
      exact ensures_done.mpr (.overflows _ a ha (by omega) (of_decide_eq_true hoverflows))
    · rename_i hoverflows
      have hfits : maxRetries - (left + 1) < 1024 := by simpa [backoffOverflows] using hoverflows
      have hnext : maxRetries - left = maxRetries - (left + 1) + 1 := by omega
      refine ensures_act.mpr fun _ => (ih (by omega)).mono fun result es h => ?_
      exact .retried _ a ha (by omega) hfits _ result (hnext ▸ h)

/-- **`_call`.**  Whatever the request, as long as it has one outcome. -/
theorem call_ends (hreq : OneOutcome req) :
    (call req maxRetries).Ensures fun result es =>
      CallEnds maxRetries (gatewaySteps es) result := by
  refine ensures_act.mpr fun ok => ?_
  cases ok with
  | true =>
    refine (retryLoop_ends hreq le_rfl).mono fun result es h => Or.inr ⟨_, rfl, ?_⟩
    rwa [Nat.sub_self] at h
  | false => exact ensures_done.mpr (Or.inl ⟨rfl, rfl⟩)

end

/-! ## The calls of the client -/

/-- A call of `AccountClient._call`. -/
inductive ClientCall where
  | post (accountId : String) (payload : TxPayload)
  | get (path : String)

/-- The call as the endpoints make it. -/
def ClientCall.run (maxRetries : ℕ) : ClientCall → ApiProg CallResult
  | .post accountId payload => ApiProg.inCore (call (request accountId payload) maxRetries)
  | .get path => getCall maxRetries path

/-- The request the call makes. -/
def ClientCall.request : ClientCall → GatewayProg Outcome
  | .post accountId payload => EventLedger.request accountId payload
  | .get _ => GatewayProg.receive 0

/-- An event of `_call`, as the endpoints carry it out. -/
def ClientCall.lift (c : ClientCall) (e : Event GatewayOp GatewayOp.Ret) :
    Event ApiOp ApiOp.Ret :=
  match c, e with
  | .get path, ⟨.receive _, o⟩ => ⟨.fetch path, o⟩
  | _, e => inApi e

theorem ClientCall.run_trace {maxRetries : ℕ} {c : ClientCall} {es : List (Event ApiOp ApiOp.Ret)}
    {result : CallResult} :
    (c.run maxRetries).Trace es result ↔
      ∃ es', es = es'.map c.lift ∧ (call c.request maxRetries).Trace es' result := by
  cases c with
  | post accountId payload =>
    exact trace_interpret_map ApiProg.core_keeps fun _ _ => .act (.refl _)
  | get path =>
    refine trace_interpret_map (fun op J Q hJ hQ => ?_) fun op r => ?_
    · cases op <;> exact keeps_act.mpr ⟨hJ, fun r => keeps_done.mpr (hQ r)⟩
    · cases op <;> exact .act (.refl _)

theorem apiLoopEvent_lift (c : ClientCall) (e : Event GatewayOp GatewayOp.Ret) :
    apiLoopEvent (c.lift e) = loopEvent e := by
  obtain ⟨op, r⟩ := e
  cases c with
  | post accountId payload => rfl
  | get path => cases op <;> rfl

theorem callSteps_lift (c : ClientCall) (es : List (Event GatewayOp GatewayOp.Ret)) :
    callSteps (es.map c.lift) = gatewaySteps es := by
  rw [callSteps, List.filterMap_map, gatewaySteps]
  congr 1
  exact List.filterMap_congr fun e _ => apiLoopEvent_lift c e

theorem callSteps_inApi (es : List (Event GatewayOp GatewayOp.Ret)) :
    callSteps (es.map inApi) = gatewaySteps es := by
  rw [callSteps, List.filterMap_map]
  rfl

theorem ClientCall.request_outcome (c : ClientCall) : OneOutcome c.request := by
  cases c with
  | post accountId payload => exact EventLedger.request_outcome accountId payload
  | get path => exact receive_outcome 0

/-- **A call of the client.** -/
theorem ClientCall.run_ends (maxRetries : ℕ) (c : ClientCall) :
    (c.run maxRetries).Ensures fun result es => CallEnds maxRetries (callSteps es) result := by
  refine ensures_iff.mpr fun es result htrace => ?_
  obtain ⟨es, rfl, hcall⟩ := run_trace.mp htrace
  rw [callSteps_lift]
  exact ensures_iff.mp (call_ends c.request_outcome) es result hcall

/-! ## Reports -/

/-- What the breaker is told. -/
def CallStep.record (cfg : BreakerConfig) (clock : ℚ) (b : CircuitBreaker) :
    CallStep → CircuitBreaker
  | .success => b.recordSuccess cfg clock
  | .failure => b.recordFailure cfg clock
  | _ => b

/-- The breaker after a call's reports. -/
def breakerAfter (cfg : BreakerConfig) (clock : ℚ) (steps : List CallStep) (b : CircuitBreaker) :
    CircuitBreaker :=
  steps.foldl (CallStep.record cfg clock) b

/-- Some request was answered, and not with a server error. -/
def Answered (os : List Outcome) : Prop := ∃ resp, Outcome.response resp ∈ os ∧ resp.status < 500

/-- An exception leaves the loop without a report, from the attempt numbered `n` on. -/
def Escapes (maxRetries n : ℕ) (steps : List CallStep) : Prop :=
  .raised ∈ outcomes steps ∨ (1024 < maxRetries ∧ 1024 < n + lostAttempts steps)

/-- How the steps report, read off their outcomes. -/
inductive Reported (maxRetries n : ℕ) (steps : List CallStep) : Prop
  | not (hescapes : Escapes maxRetries n steps) (hreports : reports steps = 0)
      (hbreaker : ∀ cfg clock b, breakerAfter cfg clock steps b = b)
  | success (hescapes : ¬ Escapes maxRetries n steps) (hanswered : Answered (outcomes steps))
      (hreports : reports steps = 1)
      (hbreaker : ∀ cfg clock b, breakerAfter cfg clock steps b = b.recordSuccess cfg clock)
  | failure (hescapes : ¬ Escapes maxRetries n steps) (hanswered : ¬ Answered (outcomes steps))
      (hreports : reports steps = 1)
      (hbreaker : ∀ cfg clock b, breakerAfter cfg clock steps b = b.recordFailure cfg clock)

variable {maxRetries n : ℕ} {steps : List CallStep} {result : CallResult}

theorem escapes_zero : Escapes maxRetries 0 steps ↔
    .raised ∈ outcomes steps ∨ Overflows maxRetries steps := by
  rw [Escapes, Nat.zero_add, Overflows]

/-- The outcome of a request, if the attempt has come to one. -/
def AttemptOutcome.requestOutcome : AttemptOutcome → Option Outcome
  | .response resp => some (.response resp)
  | .transportError => some .transportError
  | .fault _ => none

theorem outcomes_attempt (a : AttemptOutcome) :
    outcomes (.attempt a :: steps) = a.requestOutcome.toList ++ outcomes steps := by
  cases a <;> rfl

theorem mem_outcomes_attempt {a : AttemptOutcome} {o : Outcome} :
    o ∈ outcomes (.attempt a :: steps) ↔ a.requestOutcome = some o ∨ o ∈ outcomes steps := by
  simp [outcomes_attempt]

theorem lostAttempts_attempt {a : AttemptOutcome} (ha : a.transient) :
    lostAttempts (.attempt a :: steps) = lostAttempts steps + 1 :=
  List.countP_cons_of_pos ha

/-- A transient attempt is one more that is lost. -/
theorem escapes_attempt {a : AttemptOutcome} (ha : a.transient) :
    Escapes maxRetries n (.attempt a :: steps) ↔ Escapes maxRetries (n + 1) steps := by
  have hraised : a.requestOutcome ≠ some .raised := by
    cases a <;> simp [AttemptOutcome.requestOutcome]
  rw [Escapes, Escapes, mem_outcomes_attempt, lostAttempts_attempt ha]
  simp only [hraised, false_or]
  rw [show n + (lostAttempts steps + 1) = n + 1 + lostAttempts steps by omega]

theorem answered_attempt {a : AttemptOutcome} (ha : a.transient) :
    Answered (outcomes (.attempt a :: steps)) ↔ Answered (outcomes steps) := by
  constructor
  · rintro ⟨resp, hmem, hstatus⟩
    rcases mem_outcomes_attempt.mp hmem with h | hmem
    · cases a with
      | response resp' =>
        cases h
        exact absurd (of_decide_eq_true ha) (not_le.mpr hstatus)
      | _ => cases h
    · exact ⟨resp, hmem, hstatus⟩
  · rintro ⟨resp, hmem, hstatus⟩
    exact ⟨resp, mem_outcomes_attempt.mpr (Or.inr hmem), hstatus⟩

/-- A transient attempt does not change how the steps report. -/
theorem Reported.attempt {a : AttemptOutcome} (ha : a.transient)
    (h : Reported maxRetries (n + 1) steps) : Reported maxRetries n (.attempt a :: steps) := by
  cases h with
  | not hescapes hreports hbreaker =>
    exact .not ((escapes_attempt ha).mpr hescapes) hreports hbreaker
  | success hescapes hanswered hreports hbreaker =>
    exact .success (mt (escapes_attempt ha).mp hescapes) ((answered_attempt ha).mpr hanswered)
      hreports hbreaker
  | failure hescapes hanswered hreports hbreaker =>
    exact .failure (mt (escapes_attempt ha).mp hescapes) (mt (answered_attempt ha).mp hanswered)
      hreports hbreaker

/-- Neither does a sleep. -/
theorem Reported.sleep {attempt : ℕ} (h : Reported maxRetries n steps) :
    Reported maxRetries n (.sleep attempt :: steps) := by
  cases h with
  | not hescapes hreports hbreaker => exact .not hescapes hreports hbreaker
  | success hescapes hanswered hreports hbreaker =>
    exact .success hescapes hanswered hreports hbreaker
  | failure hescapes hanswered hreports hbreaker =>
    exact .failure hescapes hanswered hreports hbreaker

/-- Nothing escapes from the attempt that settles a call. -/
theorem not_escapes_settled {resp : HttpResponse} (h : resp.status < 500)
    (hn : n ≤ 1024 ∨ maxRetries ≤ 1024) :
    ¬ Escapes maxRetries n [.attempt (.response resp), .success] := by
  have hlost : lostAttempts [.attempt (.response resp), .success] = 0 := by
    simp [lostAttempts, AttemptOutcome.transient, h]
  rintro (hraised | ⟨hmax, hlt⟩)
  · cases List.mem_singleton.mp hraised
  · rw [hlost] at hlt
    omega

/-- A response below 500 is reported as a success. -/
theorem reported_settled {resp : HttpResponse} (h : resp.status < 500)
    (hn : n ≤ 1024 ∨ maxRetries ≤ 1024) :
    Reported maxRetries n [.attempt (.response resp), .success] :=
  .success (not_escapes_settled h hn) ⟨resp, List.mem_singleton_self _, h⟩ rfl fun _ _ _ => rfl

/-- **One report, or an exception.**  By induction on the retries; no attempt after the one numbered
1024 is reached if there may be as many. -/
theorem Ends.reported (h : Ends maxRetries n steps result) (hn : n ≤ 1024 ∨ maxRetries ≤ 1024) :
    Reported maxRetries n steps := by
  induction h with
  | exhausted a ha =>
    refine Reported.attempt ha (.failure ?_ ?_ rfl fun _ _ _ => rfl)
    · rintro (hraised | ⟨hmax, -⟩)
      · cases hraised
      · omega
    · rintro ⟨resp, hmem, -⟩
      cases hmem
  | success n resp hstatus => exact reported_settled (by omega) hn
  | refused n resp h400 h500 _ => exact reported_settled h500 hn
  | undecodable n resp h400 h500 _ => exact reported_settled h500 hn
  | raised n => exact .not (Or.inl List.mem_cons_self) rfl fun _ _ _ => rfl
  | overflows n a ha hlt h1024 =>
    refine .not ((escapes_attempt ha).mpr (Or.inr ⟨by omega, ?_⟩)) rfl fun _ _ _ => rfl
    show 1024 < n + 1 + 0
    omega
  | retried n a ha hlt h1024 steps result h ih =>
    have hslept := @Reported.sleep maxRetries (n + 1) steps n (ih (Or.inl h1024))
    exact hslept.attempt ha

/-- A call that is admitted goes through the loop. -/
theorem CallEnds.of_allowed (h : CallEnds maxRetries steps result) (hallowed : Answers steps true) :
    ∃ rest, steps = .allowed true :: rest ∧ Ends maxRetries 0 rest result := by
  rcases h with ⟨rfl, -⟩ | h
  · cases hallowed
  · exact h

/-- A call that is refused ends at once. -/
theorem CallEnds.of_refused (h : CallEnds maxRetries steps result)
    (hrefused : Answers steps false) : steps = [.allowed false] ∧ result = .unavailable := by
  rcases h with h | ⟨rest, rfl, -⟩
  · exact h
  · cases hrefused

/-- **Reports.**  A call the breaker has admitted reports exactly once, exactly if none of its
requests raises an exception that is neither a timeout nor a transport error and its backoff does
not overflow.  A trial slot is then given back as soon as the report ends the HALF_OPEN episode: a
failure always does, a success when it is the last one needed. -/
theorem call_reports_iff (maxRetries : ℕ) (c : ClientCall) (es : List (Event ApiOp ApiOp.Ret))
    (result : CallResult) (htrace : (c.run maxRetries).Trace es result)
    (hallowed : Answers (callSteps es) true) :
    (reports (callSteps es) = 1 ↔
      .raised ∉ outcomes (callSteps es) ∧ ¬ Overflows maxRetries (callSteps es)) ∧
      ∀ (cfg : BreakerConfig) (clock : ℚ) (b : CircuitBreaker), b.state = .halfOpen →
        1 ≤ b.halfOpenCalls →
        ((breakerAfter cfg clock (callSteps es) b).halfOpenCalls = 0 ↔
          (.raised ∉ outcomes (callSteps es) ∧ ¬ Overflows maxRetries (callSteps es)) ∧
            (Answered (outcomes (callSteps es)) → cfg.successThreshold ≤ b.successes + 1)) := by
  have hends := ensures_iff.mp (c.run_ends maxRetries) es result htrace
  obtain ⟨rest, hsteps, hrest⟩ := hends.of_allowed hallowed
  -- the permission is neither an outcome nor a report
  have houtcomes : outcomes (callSteps es) = outcomes rest := by
    rw [hsteps]
    rfl
  have hreports : reports (callSteps es) = reports rest := by
    rw [hsteps]
    rfl
  have hlost : lostAttempts (callSteps es) = lostAttempts rest := by
    rw [hsteps]
    rfl
  have hafter : ∀ cfg clock b,
      breakerAfter cfg clock (callSteps es) b = breakerAfter cfg clock rest b := by
    intro cfg clock b
    rw [hsteps]
    rfl
  have hleaves : .raised ∉ outcomes (callSteps es) ∧ ¬ Overflows maxRetries (callSteps es) ↔
      ¬ Escapes maxRetries 0 rest := by
    rw [escapes_zero, not_or, houtcomes, Overflows, Overflows, hlost]
  simp only [hleaves]
  simp only [houtcomes, hreports, hafter]
  cases hrest.reported (Or.inl (Nat.zero_le _)) with
  | not hescapes hzero hbreaker =>
    refine ⟨by simp [hzero, hescapes], ?_⟩
    intro cfg clock b _ hslot
    rw [hbreaker]
    constructor
    · intro h
      omega
    · exact fun h => absurd hescapes h.1
  | success hescapes hanswered hone hbreaker =>
    refine ⟨by simp [hone, hescapes], ?_⟩
    intro cfg clock b hstate hslot
    rw [hbreaker]
    rcases b.recordSuccess_cases cfg clock with ⟨hne, -⟩ | ⟨-, hlt, hb⟩ | ⟨-, hle, hb⟩
    · exact absurd hstate hne
    · rw [hb]
      constructor
      · intro h
        exact absurd h (show b.halfOpenCalls ≠ 0 by omega)
      · rintro ⟨-, h⟩
        exact absurd (h hanswered) (by omega)
    · rw [hb]
      exact ⟨fun _ => ⟨hescapes, fun _ => hle⟩, fun _ => rfl⟩
  | failure hescapes hanswered hone hbreaker =>
    refine ⟨by simp [hone, hescapes], ?_⟩
    intro cfg clock b hstate hslot
    rw [hbreaker]
    rcases b.recordFailure_cases cfg clock with ⟨-, hb⟩ | ⟨hne, -⟩ | ⟨hne, -⟩
    · rw [hb]
      exact ⟨fun _ => ⟨hescapes, fun h => absurd h hanswered⟩, fun _ => rfl⟩
    · exact absurd hstate hne
    · exact absurd hstate hne
/-- What the breaker, the fault switch, the network and the clock say to a call whose first attempt
is lost and whose second is answered. -/
def answeredSecondTime : List (Event ApiOp ApiOp.Ret) :=
  [⟨.core .allowRequest, true⟩, ⟨.core .fault, none⟩, ⟨.core .fault, none⟩,
    ⟨.fetch "/accounts/acct-123", .transportError⟩, ⟨.core (.sleepBackoff 0), ()⟩,
    ⟨.core .fault, none⟩, ⟨.core .fault, none⟩,
    ⟨.fetch "/accounts/acct-123", .response ⟨404, .text ""⟩⟩, ⟨.core .recordSuccess, ()⟩]

theorem answeredSecondTime_trace :
    ((ClientCall.get "/accounts/acct-123").run 2).Trace answeredSecondTime
      (.clientError ⟨404, .text ""⟩) :=
  .act (.act (.act (.act (.act (.act (.act (.act (.act (.refl _)))))))))

theorem call_reports_second_time : reports (callSteps answeredSecondTime) = 1 := by
  have hsteps : callSteps answeredSecondTime = [.allowed true, .attempt .transportError, .sleep 0,
      .attempt (.response ⟨404, .text ""⟩), .success] := rfl
  refine (call_reports_iff 2 (.get "/accounts/acct-123") answeredSecondTime _
    answeredSecondTime_trace rfl).1.mpr ⟨?_, fun h => absurd h.1 (by decide)⟩
  simp [hsteps, outcomes]

/-- The URL of an account id with a control character is refused, and nothing is reported. -/
theorem call_reports_nothing :
    ¬ ∀ (maxRetries : ℕ) (c : ClientCall) (es : List (Event ApiOp ApiOp.Ret)) (result : CallResult),
      (c.run maxRetries).Trace es result → Answers (callSteps es) true →
        reports (callSteps es) = 1 := by
  intro h
  have htrace : ((ClientCall.post "acct\t123" (sampleEvent.payload "150")).run 2).Trace
      [⟨.core .allowRequest, true⟩, ⟨.core .fault, none⟩, ⟨.core .fault, none⟩,
        ⟨.core (.send "acct\t123" (sampleEvent.payload "150")), none⟩] .raised :=
    .act (.act (.act (.act (.refl _))))
  exact absurd (h 2 _ _ _ htrace rfl) (by decide)

end EventLedger
