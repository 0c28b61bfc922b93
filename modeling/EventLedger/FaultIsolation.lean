import EventLedger.EventRegister
import EventLedger.PinnedReads
import EventLedger.ResilientGateway

/-!
# What an injected fault keeps from the Account Service

`set_fault` is there to exercise an outage without stopping the Account Service: a
call that finds the switch set fails before it sends anything.  While the switch
stays at one mode, each request that was in progress sends at most one request
more, and the later ones send nothing, insert nothing and are answered as in an
outage (`fault_isolates`).

The two modes are looked up one after the other, so the switch has to stay at one
of them: a call that finds it at "timeout" and then at "error" sends its request.
-/
namespace EventLedger

open Program Prog Service LabelledRun

/-! ## The switch -/

/-- While the switch is set to `f`, reading it returns that. -/
def GatewayOp.Armed (f : Fault) : (o : GatewayOp) → o.Ret → Prop
  | .fault, mode => mode = some f
  | _, _ => True

/-- The same for a handler. -/
def ApiOp.Armed (f : Fault) : (o : ApiOp) → o.Ret → Prop
  | .core op, r => op.Armed f r
  | _, _ => True

/-- What leaves the client. -/
def ApiOp.sends : ApiOp → ℕ
  | .core (.send _ _) => 1
  | .fetch _ => 1
  | _ => 0

/-- What leaves the client or is inserted into the `events` table. -/
def ApiOp.affects : ApiOp → ℕ
  | .core (.send _ _) => 1
  | .fetch _ => 1
  | .core (.insertEvent _) => 1
  | _ => 0

/-- The operations of a call that are not its request cost nothing. -/
structure FreeCalls (cost : GatewayOp → ℕ) : Prop where
  allowRequest : cost .allowRequest = 0
  recordSuccess : cost .recordSuccess = 0
  recordFailure : cost .recordFailure = 0
  fault : cost .fault = 0
  sleepBackoff : ∀ attempt, cost (.sleepBackoff attempt) = 0

/-! ## Calls -/

/-- What a call comes to that finds the switch set: all its attempts fail, unless the backoff after
the 1025th raises. -/
def CutOff (maxRetries : ℕ) (result : CallResult) : Prop :=
  result = .unavailable ∨ (result = .raised ∧ 1024 < maxRetries)

section
variable {f : Fault} {cost : GatewayOp → ℕ} {req : GatewayProg Outcome} {maxRetries left : ℕ}

/-- An attempt that finds the switch set fails, whatever its request. -/
theorem attemptOnce_spends (hfree : FreeCalls cost) :
    (attemptOnce req).Spends (GatewayOp.Armed f) cost (· = .transportError) 0 := by
  simp only [attemptOnce, GatewayProg.fault, perform_bind, pure_eq]
  refine ⟨hfree.fault.le, ?_⟩
  rintro _ rfl
  cases f with
  | error =>
    dsimp only
    rw [if_pos rfl]
    rfl
  | timeout =>
    dsimp only
    rw [if_neg (by decide)]
    refine ⟨(Nat.le_zero.mpr hfree.fault).trans (Nat.zero_le _), ?_⟩
    rintro _ rfl
    dsimp only
    rw [if_pos rfl]
    rfl

theorem retryLoop_spends (hfree : FreeCalls cost) :
    (retryLoop req maxRetries left).Spends (GatewayOp.Armed f) cost (CutOff maxRetries) 0 := by
  induction left with
  | zero => exact ⟨hfree.recordFailure.le, fun _ _ => Or.inl rfl⟩
  | succ left ih =>
    refine (attemptOnce_spends hfree).bind_zero ?_
    rintro _ rfl
    show (backoffAndRetry _ _ _).Spends _ _ _ 0
    unfold backoffAndRetry
    split
    · rename_i hlt
      split
      · rename_i hoverflow
        exact Or.inr ⟨rfl, lt_of_le_of_lt (of_decide_eq_true hoverflow) hlt⟩
      · exact ⟨(hfree.sleepBackoff _).le, fun _ _ => ih.mono (fun _ h => h) (Nat.zero_le _)⟩
    · exact ih

theorem call_spends (hfree : FreeCalls cost) :
    (call req maxRetries).Spends (GatewayOp.Armed f) cost (CutOff maxRetries) 0 := by
  refine ⟨hfree.allowRequest.le, fun ok _ => ?_⟩
  cases ok with
  | true => exact (retryLoop_spends hfree).mono (fun _ h => h) (Nat.zero_le _)
  | false => exact Or.inl rfl

/-- An attempt past the switch sends its request. -/
theorem attemptOnce_guarded (hfree : FreeCalls cost)
    (hreq : req.Throughout fun q => q.Spends (GatewayOp.Armed f) cost (fun _ => True) 1) :
    (attemptOnce req).Guarded (GatewayOp.Armed f) cost 1 := by
  have hstart : (attemptOnce req).Spends (GatewayOp.Armed f) cost (fun _ => True) 0 :=
    (attemptOnce_spends hfree).mono (fun _ _ => trivial) (Nat.le_refl 0)
  refine ⟨hstart, ?_⟩
  simp only [attemptOnce, GatewayProg.fault, perform_bind, pure_eq] at hstart ⊢
  refine ⟨hstart.mono (fun _ h => h) (Nat.zero_le 1), fun mode => ?_⟩
  dsimp only
  split
  · trivial
  · refine ⟨⟨hfree.fault.le.trans (Nat.zero_le 1), fun mode' _ => ?_⟩, fun mode' => ?_⟩
    · dsimp only
      split
      · trivial
      · rw [hfree.fault]
        exact hreq.self
    · dsimp only
      split
      · trivial
      · exact hreq

theorem retryLoop_guarded (hfree : FreeCalls cost)
    (hreq : req.Throughout fun q => q.Spends (GatewayOp.Armed f) cost (fun _ => True) 1) :
    (retryLoop req maxRetries left).Guarded (GatewayOp.Armed f) cost 1 := by
  induction left with
  | zero => exact guarded_act hfree.recordFailure fun _ => guarded_done _
  | succ left ih =>
    have hbackoff : (backoffAndRetry maxRetries (maxRetries - left)
        (retryLoop req maxRetries left)).Guarded (GatewayOp.Armed f) cost 1 := by
      unfold backoffAndRetry
      split
      · split
        · exact guarded_done _
        · exact guarded_act (hfree.sleepBackoff _) fun _ => ih
      · exact ih
    refine (attemptOnce_guarded hfree hreq).bind fun o => ?_
    cases o with
    | raised => exact guarded_done _
    | transportError => exact hbackoff
    | response resp =>
      by_cases hok : resp.status < 400
      · simp only [if_pos hok]
        exact guarded_act hfree.recordSuccess fun _ => guarded_done _
      · by_cases hclient : resp.status < 500
        · simp only [if_neg hok, if_pos hclient]
          exact guarded_act hfree.recordSuccess fun _ => guarded_done _
        · simp only [if_neg hok, if_neg hclient]
          exact hbackoff

theorem call_guarded (hfree : FreeCalls cost)
    (hreq : req.Throughout fun q => q.Spends (GatewayOp.Armed f) cost (fun _ => True) 1) :
    (call req maxRetries).Guarded (GatewayOp.Armed f) cost 1 := by
  refine guarded_act hfree.allowRequest fun ok => ?_
  cases ok with
  | true => exact retryLoop_guarded hfree hreq
  | false => exact guarded_done _

end

/-! ## Handlers -/

section
variable {f : Fault} {cost : ApiOp → ℕ} {maxRetries : ℕ} {path : String}

/-- What the operations of a `GET` cost. -/
def fetchCost (cost : ApiOp → ℕ) (path : String) : GatewayOp → ℕ
  | .receive _ => cost (.fetch path)
  | op => cost (.core op)

theorem FreeCalls.fetching (h : FreeCalls fun op => cost (.core op)) :
    FreeCalls (fetchCost cost path) :=
  ⟨h.allowRequest, h.recordSuccess, h.recordFailure, h.fault, h.sleepBackoff⟩

theorem freeCalls_sends : FreeCalls fun op => (ApiOp.core op).sends :=
  ⟨rfl, rfl, rfl, rfl, fun _ => rfl⟩

theorem freeCalls_affects : FreeCalls fun op => (ApiOp.core op).affects :=
  ⟨rfl, rfl, rfl, rfl, fun _ => rfl⟩

theorem core_spends (op : GatewayOp) :
    (ApiProg.core op).Spends (ApiOp.Armed f) cost (GatewayOp.Armed f op) (cost (.core op)) :=
  ⟨le_rfl, fun _ hr => hr⟩

theorem fetching_spends (op : GatewayOp) :
    (ApiProg.fetching path op).Spends (ApiOp.Armed f) cost (GatewayOp.Armed f op)
      (fetchCost cost path op) := by
  cases op with
  | receive attempt => exact ⟨le_rfl, fun _ _ => trivial⟩
  | _ => exact core_spends _

theorem core_one (op : GatewayOp) : ∃ (o : ApiOp) (c : o.Ret → op.Ret),
    ApiProg.core op = Prog.act o fun r => Prog.done (c r) := ⟨.core op, id, rfl⟩

theorem fetching_one (op : GatewayOp) : ∃ (o : ApiOp) (c : o.Ret → op.Ret),
    ApiProg.fetching path op = Prog.act o fun r => Prog.done (c r) := by
  cases op with
  | receive attempt => exact ⟨.fetch path, id, rfl⟩
  | _ => exact core_one _

/-- A `GET` that finds the switch set. -/
theorem getCall_spends (hfree : FreeCalls fun op => cost (.core op)) :
    (getCall maxRetries path).Spends (ApiOp.Armed f) cost (CutOff maxRetries) 0 :=
  (call_spends hfree.fetching).interpret fetching_spends

theorem getCall_guarded :
    (getCall maxRetries path).Guarded (ApiOp.Armed f) ApiOp.sends 1 := by
  have hreceive : (GatewayProg.receive 0).Throughout fun q =>
      q.Spends (GatewayOp.Armed f) (fetchCost ApiOp.sends path) (fun _ => True) 1 :=
    ⟨⟨le_rfl, fun _ _ => trivial⟩, fun _ => trivial⟩
  exact (call_guarded freeCalls_sends.fetching hreceive).interpret fetching_one fetching_spends

theorem clientApplyTransaction_spends {cost : GatewayOp → ℕ} (hfree : FreeCalls cost)
    (accountId : String) (payload : TxPayload) :
    (clientApplyTransaction maxRetries accountId payload).Spends (GatewayOp.Armed f) cost
      (CutOff maxRetries) 0 := by
  refine (call_spends hfree).bind_zero ?_
  rintro _ (rfl | ⟨rfl, hmany⟩)
  · exact Or.inl rfl
  · exact Or.inr ⟨rfl, hmany⟩

theorem clientApplyTransaction_guarded (accountId : String) (payload : TxPayload) :
    (clientApplyTransaction maxRetries accountId payload).Guarded (GatewayOp.Armed f)
      (fun op => (ApiOp.core op).sends) 1 := by
  have hrequest : (request accountId payload).Throughout fun q =>
      q.Spends (GatewayOp.Armed f) (fun op => (ApiOp.core op).sends) (fun _ => True) 1 := by
    refine ⟨⟨le_rfl, fun attempt _ => ?_⟩, fun attempt => ?_⟩
    · cases attempt with
      | none => trivial
      | some attempt => exact ⟨le_rfl, fun _ _ => trivial⟩
    · cases attempt with
      | none => trivial
      | some attempt => exact ⟨⟨Nat.zero_le 1, fun _ _ => trivial⟩, fun _ => trivial⟩
  exact (call_guarded freeCalls_sends hrequest).bind fun result => guarded_done _

/-! ### What a handler may send -/

theorem sends_of_offWire {o : ApiOp} (h : o.OffWire) : o.sends = 0 := by
  cases o with
  | core op =>
    cases op with
    | send accountId payload => cases h (some 0)
    | _ => rfl
  | fetch path => cases h .raised
  | _ => rfl

theorem guarded_offCall {α : Type} {p : GatewayProg α} (h : p.All GatewayOp.OffCall) :
    p.Guarded (GatewayOp.Armed f) (fun op => (ApiOp.core op).sends) 1 :=
  (h.mono fun _ => sends_of_offWire).guarded

theorem submitEvent_guarded (loads : String → Option Json) (body : EventRequest) :
    (submitEvent loads maxRetries body).Guarded (GatewayOp.Armed f)
      (fun op => (ApiOp.core op).sends) 1 := by
  have hunhandled : unhandled.All GatewayOp.OffCall := ⟨fun _ => rfl, fun _ => trivial⟩
  simp only [submitEvent, GatewayProg.getEvent, perform_bind]
  refine guarded_act rfl fun existing => ?_
  cases existing with
  | some existing =>
    exact guarded_act rfl fun _ => guarded_offCall (respond_offCall 200 existing true)
  | none =>
    dsimp only
    cases amountStr body.amount with
    | none => exact guarded_offCall hunhandled
    | some amount =>
      refine (clientApplyTransaction_guarded body.accountId _).bind fun result => ?_
      cases result with
      | response resp => exact guarded_offCall (persistEvent_offCall amount)
      | unavailable => exact guarded_act rfl fun _ => guarded_act rfl fun _ => guarded_done _
      | clientError resp =>
        refine guarded_act rfl fun _ => guarded_offCall ?_
        cases resp.safeJson with
        | some detail => trivial
        | none => exact hunhandled
      | raised => exact guarded_offCall hunhandled

/-! ### Requests that make no call -/

/-- The requests whose handlers make no call. -/
def ApiRequest.Local : ApiRequest → Prop
  | .submit _ => False
  | .getBalance _ => False
  | .getAccount _ => False
  | _ => True

theorem render_affects (status : ℕ) (body : Option Json) :
    (ApiProg.render status body).All fun o => o.affects = 0 := by
  cases body with
  | some value => trivial
  | none => exact ⟨rfl, fun _ => trivial⟩

theorem renderJson_affects (status : ℕ) (value : Json) :
    (ApiProg.renderJson status value).All fun o => o.affects = 0 :=
  render_affects status value.rendered

theorem local_affects (cfg : GatewaySettings) {req : ApiRequest} (h : req.Local) :
    (handleApi cfg req).All fun o => o.affects = 0 := by
  have hfault : getFaultHandler.All fun o => o.affects = 0 :=
    ⟨rfl, fun _ => ⟨rfl, fun _ => renderJson_affects _ _⟩⟩
  cases req with
  | submit body => exact absurd h id
  | getBalance accountId => exact absurd h id
  | getAccount accountId => exact absurd h id
  | unparseable =>
    exact (renderJson_affects _ _ : unparseableHandler.All fun o => o.affects = 0)
  | invalid endpoint errors => exact ⟨rfl, fun _ => renderJson_affects _ _⟩
  | getEvent eventId =>
    show (getEventHandler cfg eventId).All _
    rw [getEventHandler_eq]
    refine ⟨rfl, fun found => ?_⟩
    cases found with
    | none => trivial
    | some event => exact render_affects _ _
  | listEvents account =>
    show (listEventsHandler cfg account).All _
    rw [listEventsHandler_eq]
    exact ⟨rfl, fun events => render_affects _ _⟩
  | health => exact ⟨rfl, fun _ => ⟨rfl, fun _ => ⟨rfl, fun _ => renderJson_affects _ _⟩⟩⟩
  | ui => trivial
  | metrics => exact ⟨rfl, fun _ => trivial⟩
  | getAudit account limit bounds =>
    refine All.bind ⟨rfl, fun _ => trivial⟩ fun entries => ?_
    split
    · exact renderJson_affects _ _
    · exact ⟨rfl, fun _ => trivial⟩
  | getFault => exact hfault
  | setFault mode => exact ⟨rfl, fun _ => ⟨rfl, fun _ => hfault⟩⟩

theorem sends_of_affects {o : ApiOp} (h : o.affects = 0) : o.sends = 0 := by
  cases o with
  | core op =>
    cases op with
    | send accountId payload => cases h
    | _ => rfl
  | fetch path => cases h
  | _ => rfl

theorem guarded_affects {α : Type} {p : ApiProg α} (h : p.All fun o => o.affects = 0) :
    p.Guarded (ApiOp.Armed f) ApiOp.sends 1 := (h.mono fun _ => sends_of_affects).guarded

theorem readHandler_guarded {client : ApiProg CallResult}
    (h : client.Guarded (ApiOp.Armed f) ApiOp.sends 1) :
    (readHandler client).Guarded (ApiOp.Armed f) ApiOp.sends 1 := by
  refine h.bind fun result => guarded_affects ?_
  cases result with
  | raised => exact ⟨rfl, fun _ => trivial⟩
  | _ => exact render_affects _ _

/-- **One request.**  Whatever is requested, and wherever the handler may have come, it sends at
most one request more once the switch is set. -/
theorem handleApi_guarded (cfg : GatewaySettings) (req : ApiRequest) :
    (handleApi cfg req).Guarded (ApiOp.Armed f) ApiOp.sends 1 := by
  by_cases hlocal : req.Local
  · exact guarded_affects (local_affects cfg hlocal)
  · cases req with
    | submit body =>
      exact ((submitEvent_guarded cfg.loads body).interpret core_one core_spends).bind
        fun answer => guarded_affects (render_affects _ _)
    | getBalance accountId =>
      exact readHandler_guarded (getCall_guarded.bind fun _ => guarded_done _)
    | getAccount accountId =>
      exact readHandler_guarded (getCall_guarded.bind fun _ => guarded_done _)
    | _ => exact absurd trivial hlocal

/-! ### What a handler answers -/

/-- The answers of an outage, as far as they do not depend on what is stored. -/
def RefusesAsDown (maxRetries : ℕ) : ApiRequest → HttpResponse → Prop
  | .submit _, reply => reply.status = 503 ∨ reply.status = 500 ∨ reply.status = 200
  | .getBalance _, reply => reply.status = 503 ∨ (reply.status = 500 ∧ 1024 < maxRetries)
  | .getAccount _, reply => reply.status = 503 ∨ (reply.status = 500 ∧ 1024 < maxRetries)
  | _, _ => True

/-- The same for a thread of `submit_event`. -/
def RefusedOrReplayed (answer : Answer) : Prop :=
  answer = .unavailable ∨ (∃ traceId, answer = .internalError traceId) ∨
    ∃ response, answer = .recorded 200 response

theorem unhandled_spends {cost : GatewayOp → ℕ} (hfree : cost .traceId = 0) :
    unhandled.Spends (GatewayOp.Armed f) cost RefusedOrReplayed 0 :=
  ⟨hfree.le, fun traceId _ => Or.inr (Or.inl ⟨traceId, rfl⟩)⟩

theorem submitEvent_spends (loads : String → Option Json) (body : EventRequest) :
    (submitEvent loads maxRetries body).Spends (GatewayOp.Armed f)
      (fun op => (ApiOp.core op).affects) RefusedOrReplayed 0 := by
  simp only [submitEvent, GatewayProg.getEvent, perform_bind]
  refine ⟨le_rfl, fun existing _ => ?_⟩
  cases existing with
  | some existing =>
    refine ⟨le_rfl, fun _ _ => ?_⟩
    show (respond loads 200 existing true).Spends _ _ _ 0
    unfold respond
    cases existing.toResponse loads true with
    | some response => exact Or.inr (Or.inr ⟨response, rfl⟩)
    | none => exact unhandled_spends rfl
  | none =>
    dsimp only
    cases amountStr body.amount with
    | none => exact unhandled_spends rfl
    | some amount =>
      refine (clientApplyTransaction_spends freeCalls_affects body.accountId _).bind_zero ?_
      rintro _ (rfl | ⟨rfl, -⟩)
      · exact ⟨le_rfl, fun _ _ => ⟨le_rfl, fun _ _ => Or.inl rfl⟩⟩
      · exact unhandled_spends rfl

theorem unhandledError_spends {R : HttpResponse → Prop}
    (hR : ∀ reply : HttpResponse, reply.status = 500 → R reply) :
    ApiProg.unhandledError.Spends (ApiOp.Armed f) ApiOp.affects R 0 :=
  ⟨le_rfl, fun _ _ => hR _ rfl⟩

/-- A rendered answer has its own status, or is an internal error. -/
theorem render_spends {R : HttpResponse → Prop} {status : ℕ} {body : Option Json}
    (hR : ∀ reply : HttpResponse, reply.status = status ∨ reply.status = 500 → R reply) :
    (ApiProg.render status body).Spends (ApiOp.Armed f) ApiOp.affects R 0 := by
  cases body with
  | some value => exact hR _ (Or.inl rfl)
  | none => exact unhandledError_spends fun reply h => hR reply (Or.inr h)

theorem readHandler_spends {path : String} :
    (readHandler (do return parsed (← getCall maxRetries path))).Spends (ApiOp.Armed f)
      ApiOp.affects (fun reply => reply.status = 503 ∨ (reply.status = 500 ∧ 1024 < maxRetries))
      0 := by
  have hclient : (do return parsed (← getCall maxRetries path) : ApiProg CallResult).Spends
      (ApiOp.Armed f) ApiOp.affects (CutOff maxRetries) 0 := by
    refine (getCall_spends freeCalls_affects).bind_zero ?_
    rintro _ (rfl | ⟨rfl, hmany⟩)
    · exact Or.inl rfl
    · exact Or.inr ⟨rfl, hmany⟩
  refine hclient.bind_zero ?_
  rintro _ (rfl | ⟨rfl, hmany⟩)
  · exact Or.inl rfl
  · exact unhandledError_spends fun reply h500 => Or.inr ⟨h500, hmany⟩

/-- **The handlers.**  A request whose handler finds the switch set sends nothing, inserts nothing
and is answered as in an outage. -/
theorem handleApi_spends (cfg : GatewaySettings) (req : ApiRequest) :
    (handleApi cfg req).Spends (ApiOp.Armed f) ApiOp.affects (RefusesAsDown cfg.maxRetries req)
      0 := by
  by_cases hlocal : req.Local
  · refine (local_affects cfg hlocal).spends.mono (fun reply _ => ?_) (Nat.le_refl 0)
    cases req <;> trivial
  · cases req with
    | submit body =>
      refine ((submitEvent_spends cfg.loads body).interpret core_spends).bind_zero ?_
      rintro answer (rfl | ⟨traceId, rfl⟩ | ⟨response, rfl⟩)
      · exact render_spends fun reply h => h.imp_right Or.inl
      · exact render_spends fun reply h => Or.inr (Or.inl (h.elim id id))
      · exact render_spends fun reply h => Or.inr h.symm
    | getBalance accountId => exact readHandler_spends
    | getAccount accountId => exact readHandler_spends
    | _ => exact absurd trivial hlocal

end

/-! ## The Gateway -/

section
variable {breaker : BreakerConfig} {cfg : GatewaySettings} {env : ResilientEnv}
  {store store' : ResilientStore} {o : ApiOp} {r : o.Ret} {s t : ResilientState} {f : Fault}

/-- Reading the switch returns what it is set to. -/
theorem armed_of_exec (hfault : store.fault = some f)
    (h : resilientExec breaker env store o = some (store', r)) : o.Armed f r := by
  obtain ⟨-, db, hdb, -⟩ := resilientExec_cases h
  cases o with
  | core op =>
    cases op with
    | fault =>
      cases hdb
      exact hfault
    | _ => trivial
  | _ => trivial

/-- What is counted as sent is what the operation sends. -/
theorem sent_of_exec (h : resilientExec breaker env store o = some (store', r)) :
    store'.sent ≤ store.sent + o.sends := by
  obtain ⟨-, db, -, rfl⟩ := resilientExec_cases h
  cases o with
  | core op =>
    cases op with
    | send accountId payload =>
      show env.attempt.elim store.sent (fun _ => store.sent + 1) ≤ store.sent + 1
      cases env.attempt with
      | none => exact Nat.le_succ _
      | some attempt => exact le_rfl
    | _ => exact le_rfl
  | _ => exact le_rfl

/-- The requests in progress. -/
def inProgress (s : ResilientState) : ℕ :=
  s.threads.countP fun th => ¬ ∃ answer, th.Answered answer

/-- A budget of one request for each thread in progress. -/
def oneEach (s : ResilientState) : List ℕ :=
  s.threads.map fun th => if ∃ answer, th.Answered answer then 0 else 1

theorem sum_oneEach (s : ResilientState) : (oneEach s).sum = inProgress s := by
  unfold oneEach inProgress
  induction s.threads with
  | nil => rfl
  | cons th ths ih =>
    rw [List.map_cons, List.sum_cons, ih, List.countP_cons, Nat.add_comm]
    by_cases hanswered : ∃ answer, th.Answered answer
    · simp [hanswered]
    · simp [hanswered]

theorem budgeted_oneEach {ls : List ResilientLabel} {start : ℚ}
    (hreach : Run (resilientGateway breaker cfg).step (.initial (.new start)) ls s) :
    Budgeted (ApiOp.Armed f) ApiOp.sends s (oneEach s) := by
  refine List.forall₂_map_right_iff.mpr (List.forall₂_same.mpr fun th hth => ?_)
  by_cases hanswered : ∃ answer, th.Answered answer
  · obtain ⟨answer, hanswer⟩ := hanswered
    rw [show th.rest = .done answer from hanswer]
    trivial
  · rw [if_neg hanswered]
    have hran := run_ran hreach (fun _ hmem => absurd hmem List.not_mem_nil) th hth
    exact ((handleApi_guarded cfg th.request).rest.of_steps hran).self

/-- The answers of an outage: a submission is refused, or shown the stored event as a duplicate, or
it fails; a read of an account is refused, or fails where the backoff overflows. -/
def AnsweredAsDown (cfg : GatewaySettings) (db : GatewayDB) : ApiRequest → HttpResponse → Prop
  | .submit body, reply => reply.status = 503 ∨ reply.status = 500 ∨
      ∃ row response, db.getEvent body.eventId = some row ∧
        row.toResponse cfg.loads false = some response ∧
        reply = ⟨200, .json { response with duplicate := true }.shown⟩
  | .getBalance _, reply => reply.status = 503 ∨ (reply.status = 500 ∧ 1024 < cfg.maxRetries)
  | .getAccount _, reply => reply.status = 503 ∨ (reply.status = 500 ∧ 1024 < cfg.maxRetries)
  | _, _ => True

/-- A success is the stored event, as in every run of the Gateway. -/
theorem RefusesAsDown.answered {ls : List ResilientLabel} {start : ℚ}
    {th : Thread ApiRequest ApiOp ApiOp.Ret HttpResponse} {reply : HttpResponse}
    (h : RefusesAsDown cfg.maxRetries th.request reply)
    (hrun : Run (resilientGateway breaker cfg).step (.initial (.new start)) ls t)
    (hth : th ∈ t.threads) (hreply : th.Answered reply) :
    AnsweredAsDown cfg t.store.db th.request reply := by
  obtain ⟨ls', -, hplain⟩ := resilient_refines breaker cfg ls (.initial (.new start)) t hrun
  cases hreq : th.request with
  | submit body =>
    rw [hreq] at h
    refine h.imp_right (Or.imp_right fun h200 => ?_)
    have hstory := gateway_one_story cfg GatewayDB.new ls' ⟨t.store.db, t.threads⟩ hplain
    obtain ⟨row, response, hrow, hresponse, rfl | hshown⟩ := hstory.shows_row th hth body.eventId
      reply ⟨⟨body, hreq, rfl⟩, hreply, h200.ge, by omega⟩
    · cases h200
    · exact ⟨row, response, hrow, hresponse, hshown⟩
  | getBalance accountId =>
    rw [hreq] at h
    exact h
  | getAccount accountId =>
    rw [hreq] at h
    exact h
  | _ => trivial

/-- **Isolation.**  While the fault switch stays at one mode, what leaves the client is at most one
request for each request that was in progress; and every request that arrives meanwhile sends
nothing, inserts nothing and is answered as in an outage. -/
theorem fault_isolates (breaker : BreakerConfig) (cfg : GatewaySettings) (start : ℚ)
    (ls ls' : List ResilientLabel) (s t : ResilientState) (f : Fault)
    (hreach : Run (resilientGateway breaker cfg).step (.initial (.new start)) ls s)
    (h : Run (resilientGateway breaker cfg).step s ls' t)
    (harmed : Along (resilientGateway breaker cfg).step (fun u _ _ => u.store.fault = some f) s
      ls') :
    t.store.sent ≤ s.store.sent + inProgress s ∧
      ∀ (j : ℕ) (th : Thread ApiRequest ApiOp ApiOp.Ret HttpResponse), s.threads.length ≤ j →
        t.threads[j]? = some th → (∀ e ∈ th.events, e.1.affects = 0) ∧
          ∀ reply, th.Answered reply → AnsweredAsDown cfg t.store.db th.request reply := by
  constructor
  · rw [← sum_oneEach]
    exact run_budgets (C := fun store => store.fault = some f) (M := ResilientStore.sent)
      (fun req => (handleApi_guarded cfg req).start)
      (fun _ _ _ _ _ hfault hexec => armed_of_exec hfault hexec)
      (fun _ _ _ _ _ hexec => sent_of_exec hexec) h harmed (budgeted_oneEach hreach)
  · intro j th hj hth
    obtain ⟨hnothing, hanswers⟩ := run_frugal (C := fun store => store.fault = some f)
      (handleApi_spends cfg) (fun _ _ _ _ _ hfault hexec => armed_of_exec hfault hexec) h harmed hj
      hth
    exact ⟨hnothing, fun reply hreply => (hanswers reply hreply).answered (hreach.append h)
      (List.mem_of_getElem? hth) hreply⟩

end

/-! ## A run -/

/-- A submission is about to send its request when the fault is injected. -/
def armedRun : List ResilientLabel :=
  .arrive (.submit sampleEvent) :: failingAt 0 4 0 ++
    .arrive (.setFault (some .error)) :: failingAt 1 4 0

/-- It sends the request, and no other; a second submission sends none. -/
def isolatedRun : List ResilientLabel :=
  failingAt 0 9 0 ++ .arrive (.submit sampleEvent) :: failingAt 2 10 0

theorem fault_isolates_submissions : ∃ (s t : ResilientState)
    (th : Thread ApiRequest ApiOp ApiOp.Ret HttpResponse), t.store.sent = s.store.sent + 1 ∧
      inProgress s = 1 ∧ (∃ reply, th.Answered reply ∧
        AnsweredAsDown calmSettings t.store.db th.request reply) ∧
      t.store.sent ≤ s.store.sent + inProgress s ∧ ∀ e ∈ th.events, e.1.affects = 0 := by
  obtain ⟨s, hreach, hrest⟩ := Option.bind_eq_some_iff.mp
    (show ((armedRun.foldlM (resilientGateway ⟨5, 1, 1, 1⟩ calmSettings).step
      (.initial (.new 0))).bind fun s : ResilientState =>
        (isolatedRun.foldlM (resilientGateway ⟨5, 1, 1, 1⟩ calmSettings).step s).map
          fun t : ResilientState => decide (
            Along (resilientGateway ⟨5, 1, 1, 1⟩ calmSettings).step
              (fun u _ _ => u.store.fault = some .error) s isolatedRun ∧
            t.store.sent = s.store.sent + 1 ∧ inProgress s = 1 ∧ s.threads.length = 2 ∧
            (t.threads[2]?.map fun th => decide (∃ answer, th.Answered answer)) = some true)) =
      some true by decide +kernel)
  obtain ⟨t, hrun, hend⟩ := Option.map_eq_some_iff.mp hrest
  obtain ⟨harmed, hsent, hprogress, hlength, hthread⟩ := of_decide_eq_true hend
  obtain ⟨th, hth, hanswered⟩ := Option.map_eq_some_iff.mp hthread
  obtain ⟨reply, hreply⟩ := of_decide_eq_true hanswered
  obtain ⟨hbound, hisolated⟩ := fault_isolates ⟨5, 1, 1, 1⟩ calmSettings 0 armedRun isolatedRun s t
    .error hreach hrun harmed
  obtain ⟨hevents, hanswers⟩ := hisolated 2 th hlength.le hth
  exact ⟨s, t, th, hsent, hprogress, ⟨reply, hreply, hanswers reply hreply⟩, hbound, hevents⟩

/-- Between the two looks at the switch its mode changes, and the request is sent. -/
example : ((.arrive (.setFault (some .timeout)) :: failingAt 0 4 0 ++
    .arrive (.submit sampleEvent) :: failingAt 1 3 0 ++
      .arrive (.setFault (some .error)) :: failingAt 2 1 0 ++ failingAt 1 2 0).foldlM
        (resilientGateway ⟨5, 1, 1, 1⟩ calmSettings).step (.initial (.new 0))).map
          (·.store.sent) = some 1 := by decide +kernel

end EventLedger
