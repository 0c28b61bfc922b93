import EventLedger.CallOutcomes
import EventLedger.HandlerOperations

/-!
# What a misbehaving Account Service does to the Gateway

A response below 400 is taken for a success before its body is read, so a body
that is no JSON (a redirect has none at all) raises an exception nobody handles.
`_safe_json` guards the other path, but against a `ValueError` only.  What the
caller is shown is written once more, and fails there if JSON has no text for it.
Last, the backoff overflows when it is due for the 1025th time.
`downstream_handled_iff` says that this is all: any other sequence of outcomes
ends in the stored result, a downstream 4xx or a 503.
-/
namespace EventLedger

open Program Prog

/-! ## What a call's result says about its outcomes -/

/-- The response that ended the attempts: every other one was a server error. -/
def Decisive (os : List Outcome) (resp : HttpResponse) : Prop :=
  .response resp ∈ os ∧ resp.status < 500 ∧
    ∀ other, .response other ∈ os → other.status < 500 → other = resp

/-- What the outcomes are when a call ends so, from the attempt numbered `n` on. -/
def Settled (maxRetries n : ℕ) (steps : List CallStep) : CallResult → Prop
  | .response resp =>
    ¬ Escapes maxRetries n steps ∧ Decisive (outcomes steps) resp ∧ resp.status < 400
  | .clientError resp =>
    ¬ Escapes maxRetries n steps ∧ Decisive (outcomes steps) resp ∧ 400 ≤ resp.status ∧
      resp.safeJsonRaises = false
  | .unavailable => ¬ Escapes maxRetries n steps ∧ ¬ Answered (outcomes steps)
  | .raised => Escapes maxRetries n steps ∨ ∃ resp, Decisive (outcomes steps) resp ∧
      400 ≤ resp.status ∧ resp.safeJsonRaises = true

variable {maxRetries n : ℕ} {steps : List CallStep} {os : List Outcome} {result : CallResult}
  {resp : HttpResponse}

theorem decisive_settled (h : resp.status < 500) :
    Decisive (outcomes [.attempt (.response resp), .success]) resp := by
  refine ⟨List.mem_singleton_self _, h, ?_⟩
  intro other hother _
  cases List.mem_singleton.mp hother
  rfl

theorem Decisive.attempt {a : AttemptOutcome} (ha : a.transient)
    (h : Decisive (outcomes steps) resp) : Decisive (outcomes (.attempt a :: steps)) resp := by
  obtain ⟨hmem, hstatus, hother⟩ := h
  refine ⟨mem_outcomes_attempt.mpr (Or.inr hmem), hstatus, ?_⟩
  intro other hmem' hlt
  rcases mem_outcomes_attempt.mp hmem' with h | hmem'
  · cases a with
    | response resp' =>
      cases h
      exact absurd (of_decide_eq_true ha) (not_le.mpr hlt)
    | _ => cases h
  · exact hother other hmem' hlt

theorem not_answered_nil : ¬ Answered [] := by
  rintro ⟨resp, hmem, -⟩
  cases hmem

/-- One more transient attempt does not change what the result says. -/
theorem Settled.attempt {a : AttemptOutcome} (ha : a.transient)
    (h : Settled maxRetries (n + 1) steps result) :
    Settled maxRetries n (.attempt a :: steps) result := by
  cases result with
  | response resp => exact ⟨mt (escapes_attempt ha).mp h.1, h.2.1.attempt ha, h.2.2⟩
  | clientError resp => exact ⟨mt (escapes_attempt ha).mp h.1, h.2.1.attempt ha, h.2.2⟩
  | unavailable => exact ⟨mt (escapes_attempt ha).mp h.1, mt (answered_attempt ha).mp h.2⟩
  | raised =>
    refine h.imp (escapes_attempt ha).mpr ?_
    rintro ⟨resp, hdecisive, hraises⟩
    exact ⟨resp, hdecisive.attempt ha, hraises⟩

/-- **How a call ends.**  By induction on the retries. -/
theorem Ends.settled (h : Ends maxRetries n steps result) (hn : n ≤ 1024 ∨ maxRetries ≤ 1024) :
    Settled maxRetries n steps result := by
  induction h with
  | exhausted a ha =>
    refine Settled.attempt ha ⟨?_, not_answered_nil⟩
    rintro (hraised | ⟨hmax, -⟩)
    · cases hraised
    · omega
  | success n resp hstatus =>
    have h500 : resp.status < 500 := by omega
    exact ⟨not_escapes_settled h500 hn, decisive_settled h500, hstatus⟩
  | refused n resp h400 h500 hdecoded =>
    exact ⟨not_escapes_settled h500 hn, decisive_settled h500, h400, hdecoded⟩
  | undecodable n resp h400 h500 hraises =>
    exact Or.inr ⟨resp, decisive_settled h500, h400, hraises⟩
  | raised n => exact Or.inl (Or.inl List.mem_cons_self)
  | overflows n a ha hlt h1024 =>
    refine Or.inl ((escapes_attempt ha).mpr (Or.inr ⟨by omega, ?_⟩))
    show 1024 < n + 1 + 0
    omega
  | retried n a ha hlt h1024 steps result h ih => exact Settled.attempt ha (ih (Or.inl h1024))

theorem CallEnds.settled (h : CallEnds maxRetries steps result) :
    Settled maxRetries 0 steps result := by
  rcases h with ⟨rfl, rfl⟩ | ⟨rest, rfl, h⟩
  · refine ⟨?_, not_answered_nil⟩
    rintro (hraised | ⟨-, hlost⟩)
    · cases hraised
    · exact absurd hlost (by decide)
  · exact h.settled (Or.inl (Nat.zero_le _))

/-- If something holds of all responses below 500, it is enough to look at the decisive one. -/
theorem Decisive.forall_iff (h : Decisive os resp) {P : HttpResponse → Prop}
    (hP : ∀ other, 500 ≤ other.status → P other) :
    (∀ other, .response other ∈ os → P other) ↔ P resp := by
  constructor
  · exact fun hall => hall resp h.1
  · intro hresp other hother
    by_cases hlt : other.status < 500
    · exact h.2.2 other hother hlt ▸ hresp
    · exact hP other (not_lt.mp hlt)

/-! ## The client -/

/-- The methods of the client that the endpoints use. -/
inductive ClientMethod where
  | applyTransaction (accountId : String) (payload : TxPayload)
  | getBalance (accountId : String)
  | getAccount (accountId : String)

/-- The method as the endpoints call it. -/
def ClientMethod.run (maxRetries : ℕ) : ClientMethod → ApiProg CallResult
  | .applyTransaction accountId payload =>
    ApiProg.inCore (clientApplyTransaction maxRetries accountId payload)
  | .getBalance accountId => clientGetBalance maxRetries accountId
  | .getAccount accountId => clientGetAccount maxRetries accountId

/-- The result of a method is what a call returned, parsed. -/
def MethodEnds (maxRetries : ℕ) (steps : List CallStep) (result : CallResult) : Prop :=
  ∃ called, CallEnds maxRetries steps called ∧ result = parsed called

theorem clientApplyTransaction_ends (maxRetries : ℕ) (accountId : String) (payload : TxPayload) :
    (clientApplyTransaction maxRetries accountId payload).Ensures fun result es =>
      MethodEnds maxRetries (gatewaySteps es) result := by
  refine Ensures.bind (call_ends (request_outcome accountId payload)) fun called es hends => ?_
  refine ensures_done.mpr ⟨called, ?_, rfl⟩
  rwa [List.append_nil]

theorem ClientMethod.run_ends (maxRetries : ℕ) (m : ClientMethod) :
    (m.run maxRetries).Ensures fun result es => MethodEnds maxRetries (callSteps es) result := by
  have hget : ∀ path, (do return parsed (← getCall maxRetries path) :
      ApiProg CallResult).Ensures fun result es => MethodEnds maxRetries (callSteps es) result := by
    intro path
    refine Ensures.bind ((ClientCall.get path).run_ends maxRetries) fun called es hends => ?_
    refine ensures_done.mpr ⟨called, ?_, rfl⟩
    rwa [List.append_nil]
  cases m with
  | applyTransaction accountId payload =>
    refine (ApiProg.inCore_ensures
      (clientApplyTransaction_ends maxRetries accountId payload)).mono ?_
    rintro result _ ⟨es, rfl, hends⟩
    rw [callSteps_inApi]
    exact hends
  | getBalance accountId => exact hget _
  | getAccount accountId => exact hget _

/-- `json()` reads the body of a success, and the detail of a 4xx can be made of its body. -/
def Parses (resp : HttpResponse) : Prop :=
  (resp.status < 400 → resp.jsonRaises = false) ∧
    (400 ≤ resp.status → resp.status < 500 → resp.safeJsonRaises = false)

/-- What a method may end in besides an exception nobody handles. -/
inductive Handled (os : List Outcome) : CallResult → Prop
  | response (resp : HttpResponse) (h : Decisive os resp) (hstatus : resp.status < 400)
      (hjson : resp.jsonRaises = false) : Handled os (.response resp)
  | clientError (resp : HttpResponse) (h : Decisive os resp) (hstatus : 400 ≤ resp.status)
      (hdecoded : resp.safeJsonRaises = false) : Handled os (.clientError resp)
  | unavailable (h : ¬ Answered os) : Handled os .unavailable

/-- A refusal is a downstream 4xx. -/
theorem MethodEnds.of_clientError (h : MethodEnds maxRetries steps (.clientError resp)) :
    Decisive (outcomes steps) resp ∧ 400 ≤ resp.status ∧ resp.safeJsonRaises = false := by
  obtain ⟨called, hends, heq⟩ := h
  cases called with
  | clientError resp' =>
    cases heq
    exact hends.settled.2
  | response resp' =>
    rw [parsed] at heq
    split at heq
    · cases heq
    · cases heq
  | _ => cases heq

/-- A method ends as it should, or on an overflow, or on a response that does not parse. -/
theorem MethodEnds.cases (h : MethodEnds maxRetries steps result)
    (hraised : .raised ∉ outcomes steps) :
    (¬ Overflows maxRetries steps ∧ Handled (outcomes steps) result) ∨
      (result = .raised ∧ (Overflows maxRetries steps ∨
        ∃ resp, Decisive (outcomes steps) resp ∧ ¬ Parses resp)) := by
  obtain ⟨called, hends, rfl⟩ := h
  have hsettled := hends.settled
  simp only [Settled, escapes_zero, hraised, false_or] at hsettled
  cases called with
  | response resp =>
    obtain ⟨hover, hdecisive, hstatus⟩ := hsettled
    by_cases hraises : resp.jsonRaises = true
    · refine Or.inr ⟨if_pos hraises, Or.inr ⟨resp, hdecisive, fun hparses => ?_⟩⟩
      rw [hparses.1 hstatus] at hraises
      cases hraises
    · rw [parsed, if_neg hraises]
      exact Or.inl ⟨hover, .response resp hdecisive hstatus (Bool.eq_false_of_not_eq_true hraises)⟩
  | clientError resp =>
    obtain ⟨hover, hdecisive, hstatus, hdecoded⟩ := hsettled
    exact Or.inl ⟨hover, .clientError resp hdecisive hstatus hdecoded⟩
  | unavailable => exact Or.inl ⟨hsettled.1, .unavailable hsettled.2⟩
  | raised =>
    refine Or.inr ⟨rfl, hsettled.imp_right ?_⟩
    rintro ⟨resp, hdecisive, h400, hraises⟩
    exact ⟨resp, hdecisive, fun h => by simp [h.2 h400 hdecisive.2.1] at hraises⟩

theorem parses_of_server_error {other : HttpResponse} (h : 500 ≤ other.status) : Parses other :=
  ⟨fun hlt => by omega, fun _ hlt => by omega⟩

/-- **The client.**  A method ends as it should exactly if the backoff does not overflow and the
responses it meets parse. -/
theorem MethodEnds.handled_iff (h : MethodEnds maxRetries steps result)
    (hraised : .raised ∉ outcomes steps) :
    Handled (outcomes steps) result ↔
      ¬ Overflows maxRetries steps ∧ ∀ resp, .response resp ∈ outcomes steps → Parses resp := by
  rcases h.cases hraised with ⟨hover, hhandled⟩ | ⟨rfl, hnot⟩
  · refine ⟨fun _ => ⟨hover, ?_⟩, fun _ => hhandled⟩
    cases hhandled with
    | response resp hdecisive hstatus hjson =>
      exact (hdecisive.forall_iff fun _ => parses_of_server_error).mpr
        ⟨fun _ => hjson, fun h400 => by omega⟩
    | clientError resp hdecisive hstatus hdecoded =>
      exact (hdecisive.forall_iff fun _ => parses_of_server_error).mpr
        ⟨fun hlt => by omega, fun _ _ => hdecoded⟩
    | unavailable hanswered =>
      intro resp hresp
      by_cases hlt : resp.status < 500
      · exact absurd ⟨resp, hresp, hlt⟩ hanswered
      · exact parses_of_server_error (not_lt.mp hlt)
  · refine ⟨fun hhandled => (by cases hhandled), fun ⟨hover, hparses⟩ => ?_⟩
    rcases hnot with h | ⟨resp, hdecisive, hnot⟩
    · exact absurd h hover
    · exact absurd (hparses resp hdecisive.1) hnot

/-! ## `submit_event` -/

section
variable {loads : String → Option Json} {body : EventRequest}
  {es : List (Event GatewayOp GatewayOp.Ret)} {answer : Answer}

/-- The handler has come to `insert_event`. -/
def Inserts (es : List (Event GatewayOp GatewayOp.Ret)) : Prop :=
  ∃ event ok, ⟨.insertEvent event, ok⟩ ∈ es

/-- The row has been read from the database, or inserted. -/
def OnRecord (es : List (Event GatewayOp GatewayOp.Ret)) (event : StoredEvent) : Prop :=
  (∃ eventId, ⟨.getEvent eventId, some event⟩ ∈ es) ∨ ⟨.insertEvent event, true⟩ ∈ es

/-- The answer shows a row on record, or none could be shown. -/
def FromStore (loads : String → Option Json) (es : List (Event GatewayOp GatewayOp.Ret))
    (answer : Answer) : Prop :=
  (∃ traceId, answer = .internalError traceId) ∨
    ∃ event duplicate response status, OnRecord es event ∧ (status = 200 ∨ status = 201) ∧
      event.toResponse loads duplicate = some response ∧ answer = .recorded status response

/-- How `submit_event` ends: without asking the Account Service, after asking it and persisting, or
with what the client came back with. -/
inductive SubmitEnds (loads : String → Option Json) (maxRetries : ℕ)
    (es : List (Event GatewayOp GatewayOp.Ret)) : Answer → Prop
  | own (answer : Answer) (hsteps : gatewaySteps es = []) (hstore : FromStore loads es answer) :
      SubmitEnds loads maxRetries es answer
  | persisted (answer : Answer) (resp : HttpResponse)
      (hends : MethodEnds maxRetries (gatewaySteps es) (.response resp)) (hinserts : Inserts es)
      (hstore : FromStore loads es answer) : SubmitEnds loads maxRetries es answer
  | unavailable (hends : MethodEnds maxRetries (gatewaySteps es) .unavailable)
      (hinserts : ¬ Inserts es) : SubmitEnds loads maxRetries es .unavailable
  | rejected (resp : HttpResponse) (detail : Json)
      (hends : MethodEnds maxRetries (gatewaySteps es) (.clientError resp))
      (hinserts : ¬ Inserts es) (hdetail : resp.safeJson = some detail) :
      SubmitEnds loads maxRetries es (.rejected resp.status detail)
  /-- The detail of the 4xx cannot be sent on. -/
  | unrendered (resp : HttpResponse) (traceId : Option String)
      (hends : MethodEnds maxRetries (gatewaySteps es) (.clientError resp))
      (hinserts : ¬ Inserts es) (hdetail : resp.safeJson = none) :
      SubmitEnds loads maxRetries es (.internalError traceId)
  | raised (traceId : Option String) (hends : MethodEnds maxRetries (gatewaySteps es) .raised)
      (hinserts : ¬ Inserts es) : SubmitEnds loads maxRetries es (.internalError traceId)

theorem respond_ensures {status : ℕ} {event : StoredEvent} {duplicate : Bool} :
    (respond loads status event duplicate).Ensures fun answer es =>
      es.filterMap loopEvent = [] ∧ ((∃ traceId, answer = .internalError traceId) ∨
        ∃ response, event.toResponse loads duplicate = some response ∧
          answer = .recorded status response) := by
  unfold respond
  cases event.toResponse loads duplicate with
  | some response => exact ensures_done.mpr ⟨rfl, Or.inr ⟨response, rfl, rfl⟩⟩
  | none => exact ensures_act.mpr fun t => ensures_done.mpr ⟨rfl, Or.inl ⟨t, rfl⟩⟩

/-- Answering with a row that is on record. -/
theorem FromStore.of_respond {status : ℕ} {event : StoredEvent} {duplicate : Bool}
    (hrow : OnRecord es event) (hstatus : status = 200 ∨ status = 201)
    (h : (∃ traceId, answer = .internalError traceId) ∨
      ∃ response, event.toResponse loads duplicate = some response ∧
        answer = .recorded status response) : FromStore loads es answer := by
  rcases h with h | ⟨response, hresponse, rfl⟩
  · exact Or.inl h
  · exact Or.inr ⟨event, duplicate, response, status, hrow, hstatus, hresponse, rfl⟩

theorem persistEvent_ensures {amount : String} :
    (persistEvent loads body amount).Ensures fun answer es =>
      es.filterMap loopEvent = [] ∧ Inserts es ∧ FromStore loads es answer := by
  refine ensures_act.mpr fun now => ensures_act.mpr fun created => ?_
  cases created with
  | true =>
    refine ensures_act.mpr fun _ => respond_ensures.mono ?_
    rintro answer es ⟨hlog, hanswer⟩
    exact ⟨hlog, ⟨_, true, List.mem_cons_of_mem _ List.mem_cons_self⟩,
      .of_respond (Or.inr (List.mem_cons_of_mem _ List.mem_cons_self)) (Or.inr rfl) hanswer⟩
  | false =>
    refine ensures_act.mpr fun existing => ?_
    have hinserts : ∀ es, Inserts (⟨.now, now⟩ :: ⟨.insertEvent (body.stored amount now), false⟩ ::
        ⟨.getEvent body.eventId, existing⟩ :: es) :=
      fun es => ⟨_, false, List.mem_cons_of_mem _ List.mem_cons_self⟩
    cases existing with
    | some existing =>
      refine respond_ensures.mono ?_
      rintro answer es ⟨hlog, hanswer⟩
      exact ⟨hlog, hinserts es, .of_respond (Or.inl ⟨_, List.mem_cons_of_mem _
        (List.mem_cons_of_mem _ List.mem_cons_self)⟩) (Or.inl rfl) hanswer⟩
    | none =>
      exact ensures_act.mpr fun t => ensures_done.mpr ⟨rfl, hinserts _, Or.inl ⟨t, rfl⟩⟩

/-- **`submit_event`.**  By the exits of the handler. -/
theorem submitEvent_ends {maxRetries : ℕ} :
    (submitEvent loads maxRetries body).Ensures fun answer es =>
      SubmitEnds loads maxRetries es answer := by
  simp only [submitEvent, GatewayProg.getEvent, perform_bind]
  refine ensures_act.mpr fun existing => ?_
  cases existing with
  | some existing =>
    refine ensures_act.mpr fun _ => respond_ensures.mono ?_
    rintro answer es ⟨hnone, hanswer⟩
    have hsteps : gatewaySteps (⟨.getEvent body.eventId, some existing⟩ ::
        ⟨.audit "DUPLICATE" body.accountId body.eventId [], ()⟩ :: es) = [] := by
      show stepsFrom false (es.filterMap loopEvent) = []
      rw [hnone, stepsFrom]
    exact .own answer hsteps (.of_respond (Or.inl ⟨_, List.mem_cons_self⟩) (Or.inl rfl) hanswer)
  | none =>
    cases amountStr body.amount with
    | none =>
      exact ensures_act.mpr fun t => ensures_done.mpr (.own _ rfl (Or.inl ⟨t, rfl⟩))
    | some amount =>
      have hcall := (clientApplyTransaction_ends maxRetries body.accountId
        (body.payload amount)).and
        (clientApplyTransaction_all body.accountId (body.payload amount)).ensures
      refine Ensures.bind hcall fun result es hcalled => ?_
      obtain ⟨hends, hops⟩ := hcalled
      -- the call's events are those of a call, whatever follows them
      have hinserts : ∀ es', (∀ e ∈ es', ∀ event ok, e ≠ ⟨.insertEvent event, ok⟩) →
          ¬ Inserts (⟨.getEvent body.eventId, none⟩ :: (es ++ es')) := by
        rintro es' hes' ⟨event, ok, hmem⟩
        rcases List.mem_cons.mp hmem with h | hmem
        · cases h
        · rcases List.mem_append.mp hmem with hmem | hmem
          · exact hops _ hmem
          · exact hes' _ hmem event ok rfl
      have hsteps : ∀ es', es'.filterMap loopEvent = [] →
          gatewaySteps (⟨.getEvent body.eventId, none⟩ :: (es ++ es')) = gatewaySteps es := by
        intro es' hes'
        show stepsFrom false ((es ++ es').filterMap loopEvent) = _
        rw [List.filterMap_append, hes', List.append_nil, gatewaySteps]
      cases result with
      | unavailable =>
        refine ensures_act.mpr fun circuit => ensures_act.mpr fun _ => ensures_done.mpr ?_
        exact .unavailable (by rw [hsteps _ rfl]; exact hends) (hinserts _ (by simp))
      | clientError resp =>
        refine ensures_act.mpr fun _ => ?_
        cases hdetail : resp.safeJson with
        | some detail =>
          refine ensures_done.mpr ?_
          exact .rejected resp detail (by rw [hsteps _ rfl]; exact hends) (hinserts _ (by simp))
            hdetail
        | none =>
          refine ensures_act.mpr fun t => ensures_done.mpr ?_
          exact .unrendered resp t (by rw [hsteps _ rfl]; exact hends) (hinserts _ (by simp))
            hdetail
      | raised =>
        refine ensures_act.mpr fun t => ensures_done.mpr ?_
        exact .raised t (by rw [hsteps _ rfl]; exact hends) (hinserts _ (by simp))
      | response resp =>
        refine persistEvent_ensures.mono ?_
        rintro answer es' ⟨hnone, ⟨event, ok, hinsert⟩, hstore⟩
        have hmem : ∀ e ∈ es', e ∈ ⟨.getEvent body.eventId, none⟩ :: (es ++ es') :=
          fun e he => List.mem_cons_of_mem _ (List.mem_append_right _ he)
        refine .persisted answer resp (by rw [hsteps _ hnone]; exact hends)
          ⟨event, ok, hmem _ hinsert⟩ ?_
        rcases hstore with hstore | ⟨row, duplicate, response, status, hrow, hrest⟩
        · exact Or.inl hstore
        · refine Or.inr ⟨row, duplicate, response, status, ?_, hrest⟩
          rcases hrow with ⟨eventId, hrow⟩ | hrow
          · exact Or.inl ⟨eventId, hmem _ hrow⟩
          · exact Or.inr (hmem _ hrow)

end

/-! ## The endpoints -/

/-- Whether a request's handler shows its caller the body of a success; `none` for the handlers that
do not ask the Account Service. -/
def ApiRequest.showsBody : ApiRequest → Option Bool
  | .submit _ => some false
  | .getBalance _ => some true
  | .getAccount _ => some true
  | _ => none

/-- The handler can use the response: a success parses, and what is shown can be sent on. -/
def Usable (shown : Bool) (resp : HttpResponse) : Prop :=
  (resp.status < 400 → resp.jsonRaises = false ∧
    (shown → ∃ value, resp.safeJson = some value ∧ value.finite)) ∧
    (400 ≤ resp.status → resp.status < 500 → ∃ detail, resp.safeJson = some detail ∧ detail.finite)

/-- The handler has asked the Account Service and then ended in the handler for unhandled exceptions
before it came to its own database. -/
def FailsDownstream (es : List (Event ApiOp ApiOp.Ret)) (answer : HttpResponse) : Prop :=
  answer.status = 500 ∧ (∃ ok, Answers (callSteps es) ok) ∧
    ∀ event ok, ⟨.core (.insertEvent event), ok⟩ ∉ es

/-- The stored result, what the Account Service said, or a 503. -/
inductive ProperAnswer (cfg : GatewaySettings) (es : List (Event ApiOp ApiOp.Ret)) :
    HttpResponse → Prop
  | stored (event : StoredEvent) (duplicate : Bool) (response : EventResponse) (status : ℕ)
      (hrow : (∃ eventId, ⟨.core (.getEvent eventId), some event⟩ ∈ es) ∨
        ⟨.core (.insertEvent event), true⟩ ∈ es)
      (hstatus : status = 200 ∨ status = 201)
      (hresponse : event.toResponse cfg.loads duplicate = some response) :
      ProperAnswer cfg es ⟨status, .json response.shown⟩
  | passedOn (resp : HttpResponse) (value : Json) (h : Decisive (outcomes (callSteps es)) resp)
      (hstatus : resp.status < 400) (hvalue : resp.safeJson = some value) :
      ProperAnswer cfg es ⟨200, .json value⟩
  | rejected (resp : HttpResponse) (detail : Json) (h : Decisive (outcomes (callSteps es)) resp)
      (hstatus : 400 ≤ resp.status) (hdetail : resp.safeJson = some detail) :
      ProperAnswer cfg es ⟨resp.status, .json (.obj [("error", .str "account_service_rejected"),
        ("detail", detail)])⟩
  | unavailable (message : String) (h : ¬ Answered (outcomes (callSteps es))) :
      ProperAnswer cfg es ⟨503, .json (.obj [("error", .str "account_service_unavailable"),
        ("message", .str message)])⟩

/-- What the claimed behaviour of a handler comes to, exception by exception. -/
def AnswersWell (cfg : GatewaySettings) (shown : Bool) (answer : HttpResponse)
    (es : List (Event ApiOp ApiOp.Ret)) : Prop :=
  .raised ∉ outcomes (callSteps es) →
    (¬ FailsDownstream es answer ↔ ¬ Overflows cfg.maxRetries (callSteps es) ∧
      ∀ resp, .response resp ∈ outcomes (callSteps es) → Usable shown resp) ∧
    (answer.status ≠ 500 → ProperAnswer cfg es answer)

section
variable {cfg : GatewaySettings} {shown : Bool} {answer : HttpResponse}
  {es es' : List (Event ApiOp ApiOp.Ret)} {status : ℕ} {body : Option Json}

/-- What a body is answered as. -/
def Rendered (status : ℕ) (body : Option Json) (answer : HttpResponse) : Prop :=
  (∃ value, body = some value ∧ answer = ⟨status, .json value⟩) ∨
    (body = none ∧ answer.status = 500)

/-- Rendering reads the trace id at most. -/
theorem render_ensures : (ApiProg.render status body).Ensures fun answer es =>
    (∀ e ∈ es, e.1 = .core .traceId) ∧ Rendered status body answer := by
  cases body with
  | some value => exact ensures_done.mpr ⟨by simp, Or.inl ⟨value, rfl, rfl⟩⟩
  | none => exact ensures_act.mpr fun t => ensures_done.mpr ⟨by simp, Or.inr ⟨rfl, rfl⟩⟩

@[simp] theorem Json.rendered_eq_some_iff {v w : Json} :
    v.rendered = some w ↔ v.finite ∧ v = w := by
  rw [Json.rendered]
  split <;> simp [*]

theorem Json.rendered_eq_none_iff {v : Json} : v.rendered = none ↔ v.finite = false := by
  rw [Json.rendered]
  split <;> simp [*]

theorem callSteps_append_traceId (h : ∀ e ∈ es', e.1 = .core .traceId) :
    callSteps (es ++ es') = callSteps es := by
  have hnil : es'.filterMap apiLoopEvent = [] := by
    rw [List.filterMap_eq_nil_iff]
    rintro ⟨op, r⟩ he
    cases h _ he
    rfl
  rw [callSteps, List.filterMap_append, hnil, List.append_nil, callSteps]

/-- A method asks the breaker first. -/
theorem MethodEnds.asks (h : MethodEnds maxRetries steps result) : ∃ ok, Answers steps ok := by
  obtain ⟨called, ⟨rfl, -⟩ | ⟨rest, rfl, -⟩, -⟩ := h
  · exact ⟨false, rfl⟩
  · exact ⟨true, rfl⟩

theorem usable_of_server_error {other : HttpResponse} (h : 500 ≤ other.status) :
    Usable shown other :=
  ⟨fun hlt => by omega, fun _ hlt => by omega⟩

/-- What is made of a response can be sent on only if it parses. -/
theorem Usable.parses (h : Usable shown resp) : Parses resp := by
  refine ⟨fun hlt => (h.1 hlt).1, fun h400 h500 => ?_⟩
  obtain ⟨detail, hdetail, -⟩ := h.2 h400 h500
  obtain ⟨status, respBody⟩ := resp
  cases respBody with
  | undecodable => cases hdetail
  | _ => rfl

theorem MethodEnds.failsDownstream_iff (h : MethodEnds maxRetries (callSteps es) result)
    (hinserts : ∀ event ok, ⟨.core (.insertEvent event), ok⟩ ∉ es) :
    FailsDownstream es answer ↔ answer.status = 500 :=
  ⟨fun hfails => hfails.1, fun h500 => ⟨h500, h.asks, hinserts⟩⟩

/-- The body of an answer to a downstream 4xx. -/
def rejectedBody (resp : HttpResponse) : Option Json :=
  resp.safeJson.bind fun detail =>
    (Json.obj [("error", .str "account_service_rejected"), ("detail", detail)]).rendered

/-- What becomes of the client's result in a handler that shows the body of a success. -/
def Shows (shown : Bool) (answer : HttpResponse) : CallResult → Prop
  | .response resp => shown ∧ Rendered 200 (resp.safeJson.bind Json.rendered) answer
  | .clientError resp => Rendered resp.status (rejectedBody resp) answer
  | .unavailable => ∃ message, Rendered 503 (some (.obj
      [("error", .str "account_service_unavailable"), ("message", .str message)])) answer
  | .raised => answer.status = 500

/-- An answer made of a body is a 500 exactly if the body cannot be written. -/
theorem answered_iff_of_rendered {P : Prop} (hrendered : Rendered status body answer)
    (hstatus : status ≠ 500) (hbody : body ≠ none ↔ P)
    (hproper : ∀ value, body = some value → ProperAnswer cfg es ⟨status, .json value⟩) :
    (¬ answer.status = 500 ↔ P) ∧ (answer.status ≠ 500 → ProperAnswer cfg es answer) := by
  rw [← hbody]
  rcases hrendered with ⟨value, hvalue, rfl⟩ | ⟨hnone, h500⟩
  · exact ⟨⟨fun _ => by simp [hvalue], fun _ => hstatus⟩, fun _ => hproper value hvalue⟩
  · exact ⟨⟨fun h => absurd h500 h, fun h => absurd hnone h⟩, fun h => absurd h500 h⟩

/-- A success can be shown exactly if the handler can use it. -/
theorem rendered_iff_usable {resp : HttpResponse} (hstatus : resp.status < 400)
    (hjson : resp.jsonRaises = false) (hshown : shown = true) :
    resp.safeJson.bind Json.rendered ≠ none ↔ Usable shown resp := by
  rw [Option.ne_none_iff_exists']
  simp only [Option.bind_eq_some_iff, Json.rendered_eq_some_iff]
  constructor
  · rintro ⟨_, value, hvalue, hfinite, rfl⟩
    exact ⟨fun _ => ⟨hjson, fun _ => ⟨value, hvalue, hfinite⟩⟩, fun h400 => by omega⟩
  · intro husable
    obtain ⟨value, hvalue, hfinite⟩ := (husable.1 hstatus).2 hshown
    exact ⟨value, value, hvalue, hfinite, rfl⟩

/-- A 4xx can be passed on exactly if the handler can use it. -/
theorem rejectedBody_iff_usable {resp : HttpResponse} (h400 : 400 ≤ resp.status)
    (h500 : resp.status < 500) : rejectedBody resp ≠ none ↔ Usable shown resp := by
  rw [Option.ne_none_iff_exists']
  simp only [rejectedBody, Option.bind_eq_some_iff, Json.rendered_eq_some_iff]
  constructor
  · rintro ⟨_, detail, hdetail, hfinite, rfl⟩
    exact ⟨fun _ => by omega, fun _ _ => ⟨detail, hdetail,
      by simpa [Json.finite, Json.finiteFields] using hfinite⟩⟩
  · intro husable
    obtain ⟨detail, hdetail, hfinite⟩ := husable.2 h400 h500
    exact ⟨_, detail, hdetail, by simpa [Json.finite, Json.finiteFields] using hfinite, rfl⟩

/-- **A handler that answers from the client's result.** -/
theorem answersWell_of_shows (hends : MethodEnds cfg.maxRetries (callSteps es) result)
    (hinserts : ∀ event ok, ⟨.core (.insertEvent event), ok⟩ ∉ es)
    (hshows : Shows shown answer result) : AnswersWell cfg shown answer es := by
  intro hraised
  have hserver : ∀ other : HttpResponse, 500 ≤ other.status → Usable shown other :=
    fun other => usable_of_server_error
  rw [hends.failsDownstream_iff hinserts]
  rcases hends.cases hraised with ⟨hover, hhandled⟩ | ⟨rfl, hnot⟩
  · rw [and_iff_right hover]
    cases hhandled with
    | response resp hdecisive hstatus hjson =>
      obtain ⟨hshown, hrendered⟩ := hshows
      refine answered_iff_of_rendered hrendered (by decide) ?_ ?_
      · rw [hdecisive.forall_iff hserver]
        exact rendered_iff_usable hstatus hjson hshown
      · intro value hvalue
        obtain ⟨value, hsafe, hrendered⟩ := Option.bind_eq_some_iff.mp hvalue
        obtain ⟨-, rfl⟩ := Json.rendered_eq_some_iff.mp hrendered
        exact .passedOn resp value hdecisive hstatus hsafe
    | clientError resp hdecisive hstatus hdecoded =>
      refine answered_iff_of_rendered hshows (ne_of_lt hdecisive.2.1) ?_ ?_
      · rw [hdecisive.forall_iff hserver]
        exact rejectedBody_iff_usable hstatus hdecisive.2.1
      · intro value hvalue
        obtain ⟨detail, hsafe, hrendered⟩ := Option.bind_eq_some_iff.mp hvalue
        obtain ⟨-, rfl⟩ := Json.rendered_eq_some_iff.mp hrendered
        exact .rejected resp detail hdecisive hstatus hsafe
    | unavailable hanswered =>
      obtain ⟨message, hrendered⟩ := hshows
      refine answered_iff_of_rendered hrendered (by decide) ?_ ?_
      · refine ⟨fun _ resp hresp => ?_, fun _ => by simp⟩
        by_cases hlt : resp.status < 500
        · exact absurd ⟨resp, hresp, hlt⟩ hanswered
        · exact usable_of_server_error (not_lt.mp hlt)
      · rintro _ ⟨⟩
        exact .unavailable message hanswered
  · -- an exception nobody handles, whose cause the condition rules out
    have h500 : answer.status = 500 := hshows
    refine ⟨⟨fun h => absurd h500 h, fun ⟨hover, husable⟩ => ?_⟩, fun h => absurd h500 h⟩
    rcases hnot with h | ⟨resp, hdecisive, hnot⟩
    · exact absurd h hover
    · exact absurd (husable resp hdecisive.1).parses hnot

/-- **`get_balance` and `get_account`.** -/
theorem readHandler_ensures {client : ApiProg CallResult} (hall : client.All ApiOp.Reads)
    (hends : client.Ensures fun result es => MethodEnds cfg.maxRetries (callSteps es) result) :
    (readHandler client).Ensures (AnswersWell cfg true) := by
  have hboth := hends.and hall.ensures
  refine Ensures.bind hboth fun result es hcalled => ?_
  obtain ⟨hends, hops⟩ := hcalled
  have key : ∀ answer es', (∀ e ∈ es', e.1 = .core .traceId) → Shows true answer result →
      AnswersWell cfg true answer (es ++ es') := by
    intro answer es' htrace hshows
    refine answersWell_of_shows (by rwa [callSteps_append_traceId htrace]) ?_ hshows
    intro event ok hmem
    rcases List.mem_append.mp hmem with hmem | hmem
    · exact hops _ hmem
    · cases htrace _ hmem
  cases result with
  | response resp =>
    exact render_ensures.mono fun answer es' ⟨htrace, h⟩ => key answer es' htrace ⟨rfl, h⟩
  | unavailable =>
    exact render_ensures.mono fun answer es' ⟨htrace, h⟩ => key answer es' htrace ⟨_, h⟩
  | clientError resp =>
    exact render_ensures.mono fun answer es' ⟨htrace, h⟩ => key answer es' htrace h
  | raised =>
    exact ensures_act.mpr fun t => ensures_done.mpr (key _ _ (by simp) rfl)

theorem mem_map_inApi {es : List (Event GatewayOp GatewayOp.Ret)} {op : GatewayOp} {r : op.Ret} :
    (⟨.core op, r⟩ : Event ApiOp ApiOp.Ret) ∈ es.map inApi ↔ ⟨op, r⟩ ∈ es := by
  constructor
  · intro h
    obtain ⟨⟨op', r'⟩, hmem, he⟩ := List.mem_map.mp h
    cases he
    exact hmem
  · exact fun h => List.mem_map.mpr ⟨_, h, rfl⟩

/-- What a stored answer is rendered as. -/
theorem properAnswer_of_fromStore {es : List (Event GatewayOp GatewayOp.Ret)} {a : Answer}
    (hstore : FromStore cfg.loads es a)
    (hrendered : Rendered a.status (a.body cfg.serializes) answer) (h500 : answer.status ≠ 500) :
    ProperAnswer cfg (es.map inApi ++ es') answer := by
  rcases hrendered with ⟨value, hvalue, rfl⟩ | ⟨-, h⟩
  · rcases hstore with ⟨t, rfl⟩ |
      ⟨event, duplicate, response, status, hrow, hstatus, hresponse, rfl⟩
    · exact absurd rfl h500
    · obtain ⟨-, rfl⟩ := EventResponse.serialized_eq_some_iff.mp hvalue
      refine .stored event duplicate response status ?_ hstatus hresponse
      rcases hrow with ⟨eventId, hrow⟩ | hrow
      · exact Or.inl ⟨eventId, List.mem_append_left _ (mem_map_inApi.mpr hrow)⟩
      · exact Or.inr (List.mem_append_left _ (mem_map_inApi.mpr hrow))
  · exact absurd h h500

/-- An internal error is a 500, whatever it is rendered as. -/
theorem status_of_internalError {t : Option String}
    (h : Rendered 500 ((Answer.internalError t).body cfg.serializes) answer) :
    answer.status = 500 := by
  rcases h with ⟨value, -, rfl⟩ | ⟨-, h⟩
  · rfl
  · exact h

/-- **`submit_event`.** -/
theorem postEvent_ensures (body : EventRequest) :
    (postEvent cfg body).Ensures (AnswersWell cfg false) := by
  refine Ensures.bind (ApiProg.inCore_ensures submitEvent_ends) ?_
  rintro a _ ⟨es, rfl, hends⟩
  refine render_ensures.mono ?_
  rintro answer es' ⟨htrace, hrendered⟩
  have hsteps : callSteps (es.map inApi ++ es') = gatewaySteps es := by
    rw [callSteps_append_traceId htrace, callSteps_inApi]
  have hinserts : ¬ Inserts es → ∀ event ok, ⟨.core (.insertEvent event), ok⟩ ∉
      es.map inApi ++ es' := by
    intro hno event ok hmem
    rcases List.mem_append.mp hmem with hmem | hmem
    · exact hno ⟨event, ok, mem_map_inApi.mp hmem⟩
    · cases htrace _ hmem
  cases hends with
  | own _ hnil hstore =>
    -- nothing has been asked, so nothing failed because of it
    intro _
    rw [hsteps, hnil]
    refine ⟨⟨fun _ => ⟨fun h => absurd h.2 (by decide), fun resp hresp => by cases hresp⟩, ?_⟩,
      properAnswer_of_fromStore hstore hrendered⟩
    rintro - ⟨-, ⟨ok, hasked⟩, -⟩
    rw [hsteps, hnil] at hasked
    cases hasked
  | persisted _ resp hends hins hstore =>
    -- the call has succeeded, and what fails now is the handler's own
    intro hraised
    rw [hsteps] at hraised ⊢
    refine ⟨⟨fun _ => ?_, ?_⟩, properAnswer_of_fromStore hstore hrendered⟩
    · rcases hends.cases hraised with ⟨hover, hhandled⟩ | ⟨h, -⟩
      · cases hhandled with
        | response _ hdecisive hstatus hjson =>
          refine ⟨hover, (hdecisive.forall_iff fun other => usable_of_server_error).mpr ?_⟩
          exact ⟨fun _ => ⟨hjson, fun h => by cases h⟩, fun h400 => by omega⟩
      · cases h
    · rintro - ⟨-, -, hno⟩
      obtain ⟨event, ok, hmem⟩ := hins
      exact hno event ok (List.mem_append_left _ (mem_map_inApi.mpr hmem))
  | unavailable hends hno =>
    rw [← hsteps] at hends
    exact answersWell_of_shows hends (hinserts hno) ⟨_, hrendered⟩
  | rejected resp detail hends hno hdetail =>
    rw [← hsteps] at hends
    refine answersWell_of_shows hends (hinserts hno) ?_
    show Rendered resp.status (rejectedBody resp) answer
    rw [rejectedBody, hdetail, Option.bind_some]
    exact hrendered
  | unrendered resp t hends hno hdetail =>
    rw [← hsteps] at hends
    refine answersWell_of_shows hends (hinserts hno)
      (Or.inr ⟨?_, status_of_internalError hrendered⟩)
    rw [rejectedBody, hdetail, Option.bind_none]
  | raised t hends hno =>
    rw [← hsteps] at hends
    exact answersWell_of_shows hends (hinserts hno) (status_of_internalError hrendered)

end

/-- A balance that arrives after one lost attempt. -/
def balanceSecondTime : List (Event ApiOp ApiOp.Ret) :=
  [⟨.core .allowRequest, true⟩, ⟨.core .fault, none⟩, ⟨.core .fault, none⟩,
    ⟨.fetch "/accounts/acct-123/balance", .transportError⟩, ⟨.core (.sleepBackoff 0), ()⟩,
    ⟨.core .fault, none⟩, ⟨.core .fault, none⟩,
    ⟨.fetch "/accounts/acct-123/balance", .response ⟨200, .json (.obj [])⟩⟩,
    ⟨.core .recordSuccess, ()⟩]

/-- A `200` that is no JSON is taken for a success, and reading it raises. -/
def plainText : List (Event ApiOp ApiOp.Ret) :=
  [⟨.core .allowRequest, true⟩, ⟨.core .fault, none⟩, ⟨.core .fault, none⟩,
    ⟨.fetch "/accounts/acct-123/balance", .response ⟨200, .text "ok"⟩⟩, ⟨.core .recordSuccess, ()⟩]

end EventLedger
