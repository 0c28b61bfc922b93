import EventLedger.HandlerOperations
import EventLedger.LedgerSystem

/-!
# What the handlers leave behind

Every exit of the two handlers, read as what must have happened on the way to it:
a submission is not answered before it has an entry in the trail, or a response
to an attempt of its own, and a transaction is not answered before it has an
entry.  An unhandled exception is answered with what the context variable holds.

The statements are about the events of one handler.  `AuditTrail` adds them up over
the threads of a run, where the entries of one handler stand among those of others.
-/
namespace EventLedger

open Program Prog

/-! ## The Gateway -/

section
variable {body : EventRequest} {accountId : String} {payload : TxPayload} {resp : HttpResponse}
  {es es' : List (Event GatewayOp GatewayOp.Ret)} {req : GatewayProg Outcome} {maxRetries left : ℕ}

/-- The response is the one to an attempt sent in these operations. -/
def Responded (accountId : String) (payload : TxPayload) (resp : HttpResponse)
    (es : List (Event GatewayOp GatewayOp.Ret)) : Prop :=
  ∃ a, ⟨.send accountId payload, some a⟩ ∈ es ∧ ⟨.receive a, .response resp⟩ ∈ es

theorem Responded.mono (h : Responded accountId payload resp es) (hsub : es ⊆ es') :
    Responded accountId payload resp es' := by
  obtain ⟨a, hsend, hreceive⟩ := h
  exact ⟨a, hsub hsend, hsub hreceive⟩

/-- The outcome of an attempt is the response to it. -/
def OutcomeResponded (accountId : String) (payload : TxPayload) (o : Outcome)
    (es : List (Event GatewayOp GatewayOp.Ret)) : Prop :=
  ∀ resp, o = .response resp → Responded accountId payload resp es

/-- A call that returns a response has read it, and it is below 400. -/
def CallResponded (accountId : String) (payload : TxPayload) (result : CallResult)
    (es : List (Event GatewayOp GatewayOp.Ret)) : Prop :=
  ∀ resp, result = .response resp → resp.status < 400 ∧ Responded accountId payload resp es

theorem CallResponded.mono {result : CallResult} (h : CallResponded accountId payload result es)
    (hsub : es ⊆ es') : CallResponded accountId payload result es' :=
  fun resp hresp => (h resp hresp).imp_right (·.mono hsub)

theorem request_responded (accountId : String) (payload : TxPayload) :
    (request accountId payload).Ensures (OutcomeResponded accountId payload) := by
  refine ensures_act.mpr fun attempt => ?_
  cases attempt with
  | none => exact ensures_done.mpr fun resp hresp => by cases hresp
  | some a =>
    refine ensures_act.mpr fun o => ensures_done.mpr ?_
    rintro resp rfl
    exact ⟨a, List.mem_cons_self, List.mem_cons_of_mem _ List.mem_cons_self⟩

theorem attemptOnce_responded (hreq : req.Ensures (OutcomeResponded accountId payload)) :
    (attemptOnce req).Ensures (OutcomeResponded accountId payload) := by
  have hfault : ∀ es, OutcomeResponded accountId payload .transportError es :=
    fun es resp hresp => by cases hresp
  simp only [attemptOnce, GatewayProg.fault, perform_bind, pure_eq]
  refine ensures_act.mpr fun fault₁ => ?_
  split
  · exact ensures_done.mpr (hfault _)
  · refine ensures_act.mpr fun fault₂ => ?_
    split
    · exact ensures_done.mpr (hfault _)
    · refine hreq.mono fun o es h resp hresp => (h resp hresp).mono ?_
      exact fun e he => List.mem_cons_of_mem _ (List.mem_cons_of_mem _ he)

/-- **The retry loop.**  By induction on the attempts that are left. -/
theorem retryLoop_responded (hreq : req.Ensures (OutcomeResponded accountId payload)) :
    (retryLoop req maxRetries left).Ensures (CallResponded accountId payload) := by
  induction left with
  | zero => exact ensures_act.mpr fun _ => ensures_done.mpr fun resp hresp => by cases hresp
  | succ left ih =>
    have hbackoff : (backoffAndRetry maxRetries (maxRetries - left)
        (retryLoop req maxRetries left)).Ensures (CallResponded accountId payload) := by
      unfold backoffAndRetry
      split
      · split
        · exact ensures_done.mpr fun resp hresp => by cases hresp
        · exact ensures_act.mpr fun _ => ih.mono fun result es h =>
            h.mono (List.subset_cons_self _ _)
      · exact ih
    refine Ensures.bind (attemptOnce_responded hreq) fun o es ho => ?_
    have hretried := hbackoff.mono fun result es' h => h.mono (List.subset_append_right es es')
    cases o with
    | raised => exact ensures_done.mpr fun resp hresp => by cases hresp
    | transportError => exact hretried
    | response resp =>
      by_cases hok : resp.status < 400
      · simp only [if_pos hok]
        refine ensures_act.mpr fun _ => ensures_done.mpr ?_
        rintro _ ⟨⟩
        exact ⟨hok, (ho resp rfl).mono (List.subset_append_left es _)⟩
      · by_cases hclient : resp.status < 500
        · simp only [if_neg hok, if_pos hclient]
          refine ensures_act.mpr fun _ => ensures_done.mpr fun resp hresp => ?_
          split at hresp
          · cases hresp
          · cases hresp
        · simp only [if_neg hok, if_neg hclient]
          exact hretried

/-- The client has read a response below 400 with a JSON body, to an attempt for the submission. -/
def Forwarded (body : EventRequest) (es : List (Event GatewayOp GatewayOp.Ret)) : Prop :=
  ∃ amount resp, resp.status < 400 ∧ resp.jsonRaises = false ∧
    Responded body.accountId (body.payload amount) resp es

theorem Forwarded.mono (h : Forwarded body es) (hsub : es ⊆ es') : Forwarded body es' := by
  obtain ⟨amount, resp, hstatus, hjson, hresponded⟩ := h
  exact ⟨amount, resp, hstatus, hjson, hresponded.mono hsub⟩

theorem clientApplyTransaction_forwarded (maxRetries : ℕ) (body : EventRequest) (amount : String) :
    (clientApplyTransaction maxRetries body.accountId (body.payload amount)).Ensures
      fun result es => ∀ resp, result = .response resp → Forwarded body es := by
  have hcall : (call (request body.accountId (body.payload amount)) maxRetries).Ensures
      (CallResponded body.accountId (body.payload amount)) := by
    refine ensures_act.mpr fun ok => ?_
    cases ok with
    | true =>
      exact (retryLoop_responded (request_responded _ _)).mono fun result es h =>
        h.mono (List.subset_cons_self _ _)
    | false => exact ensures_done.mpr fun resp hresp => by cases hresp
  refine Ensures.bind hcall fun result es hresult => ensures_done.mpr fun resp hresp => ?_
  -- the response is the one the call returned
  obtain ⟨rfl, hjson⟩ := parsed_eq_response.mp hresp
  obtain ⟨hstatus, hresponded⟩ := hresult resp rfl
  exact ⟨amount, resp, hstatus, hjson, hresponded.mono (List.subset_append_left es _)⟩

/-- An entry about the submission has been appended. -/
def AuditsAs (body : EventRequest) (outcome : String)
    (es : List (Event GatewayOp GatewayOp.Ret)) : Prop :=
  ∃ detail, ⟨.audit outcome body.accountId body.eventId detail, ()⟩ ∈ es

/-- What a submission has left behind when it is answered. -/
def Leaves (body : EventRequest) (es : List (Event GatewayOp GatewayOp.Ret)) : Answer → Prop
  | .recorded status _ =>
    (status = 201 ∧ AuditsAs body "ACCEPTED" es ∧ Forwarded body es) ∨
      (status = 200 ∧ (AuditsAs body "DUPLICATE" es ∨ Forwarded body es))
  | .unavailable => AuditsAs body "DOWNSTREAM_UNAVAILABLE" es
  | .rejected _ _ => AuditsAs body "DOWNSTREAM_REJECTED" es
  | .internalError traceId => ⟨.traceId, traceId⟩ ∈ es

/-- An exception is answered with what the context variable holds. -/
def AnswersError (answer : Answer) (es : List (Event GatewayOp GatewayOp.Ret)) : Prop :=
  ∃ traceId, answer = .internalError traceId ∧ ⟨.traceId, traceId⟩ ∈ es

theorem AnswersError.leaves {answer : Answer} (h : AnswersError answer es) (hsub : es ⊆ es') :
    Leaves body es' answer := by
  obtain ⟨traceId, rfl, hmem⟩ := h
  exact hsub hmem

theorem unhandled_answers : unhandled.Ensures AnswersError :=
  ensures_act.mpr fun traceId => ensures_done.mpr ⟨traceId, rfl, List.mem_cons_self⟩

theorem respond_answers (loads : String → Option Json) (status : ℕ) (event : StoredEvent)
    (duplicate : Bool) : (respond loads status event duplicate).Ensures fun answer es =>
      (∃ response, answer = .recorded status response) ∨ AnswersError answer es := by
  unfold respond
  cases event.toResponse loads duplicate with
  | some response => exact ensures_done.mpr (.inl ⟨response, rfl⟩)
  | none => exact unhandled_answers.mono fun _ _ h => .inr h

theorem persistEvent_leaves (loads : String → Option Json) (amount : String)
    (h : Forwarded body es) : (persistEvent loads body amount).Ensures
      fun answer es' => Leaves body (es ++ es') answer := by
  refine ensures_act.mpr fun now => ensures_act.mpr fun created => ?_
  cases created with
  | true =>
    refine ensures_act.mpr fun _ => (respond_answers loads 201 _ false).mono fun answer es' ha => ?_
    rcases ha with ⟨response, rfl⟩ | herror
    · exact .inl ⟨rfl, ⟨_, List.mem_append_right es (List.mem_cons_of_mem _
        (List.mem_cons_of_mem _ List.mem_cons_self))⟩, h.mono (List.subset_append_left es _)⟩
    · exact herror.leaves fun e he => List.mem_append_right es
        (List.mem_cons_of_mem _ (List.mem_cons_of_mem _ (List.mem_cons_of_mem _ he)))
  | false =>
    refine ensures_act.mpr fun existing => ?_
    cases existing with
    | some existing =>
      refine (respond_answers loads 200 existing true).mono fun answer es' ha => ?_
      rcases ha with ⟨response, rfl⟩ | herror
      · exact .inr ⟨rfl, .inr (h.mono (List.subset_append_left es _))⟩
      · exact herror.leaves fun e he => List.mem_append_right es
          (List.mem_cons_of_mem _ (List.mem_cons_of_mem _ (List.mem_cons_of_mem _ he)))
    | none =>
      refine unhandled_answers.mono fun answer es' herror => ?_
      exact herror.leaves fun e he => List.mem_append_right es
        (List.mem_cons_of_mem _ (List.mem_cons_of_mem _ (List.mem_cons_of_mem _ he)))

/-- **`submit_event`.**  By the exits of the handler. -/
theorem submitEvent_leaves (loads : String → Option Json) (maxRetries : ℕ) (body : EventRequest) :
    (submitEvent loads maxRetries body).Ensures fun answer es => Leaves body es answer := by
  simp only [submitEvent, GatewayProg.getEvent, GatewayProg.audit, GatewayProg.circuitState,
    perform_bind, pure_eq]
  refine ensures_act.mpr fun existing => ?_
  cases existing with
  | some existing =>
    refine ensures_act.mpr fun _ => (respond_answers loads 200 existing true).mono ?_
    rintro answer es (⟨response, rfl⟩ | herror)
    · exact .inr ⟨rfl, .inl ⟨_, List.mem_cons_of_mem _ List.mem_cons_self⟩⟩
    · exact herror.leaves fun e he => List.mem_cons_of_mem _ (List.mem_cons_of_mem _ he)
  | none =>
    cases amountStr body.amount with
    | none =>
      exact unhandled_answers.mono fun answer es herror => herror.leaves (List.subset_cons_self _ _)
    | some amount =>
      refine Ensures.bind (clientApplyTransaction_forwarded maxRetries body amount)
        fun result es hresult => ?_
      cases result with
      | unavailable =>
        exact ensures_act.mpr fun circuit => ensures_act.mpr fun _ => ensures_done.mpr
          ⟨_, List.mem_cons_of_mem _
            (List.mem_append_right es (List.mem_cons_of_mem _ List.mem_cons_self))⟩
      | clientError resp =>
        refine ensures_act.mpr fun _ => ?_
        cases resp.safeJson with
        | some detail =>
          exact ensures_done.mpr
            ⟨_, List.mem_cons_of_mem _ (List.mem_append_right es List.mem_cons_self)⟩
        | none =>
          exact unhandled_answers.mono fun answer es' herror => herror.leaves fun e he =>
            List.mem_cons_of_mem _ (List.mem_append_right es (List.mem_cons_of_mem _ he))
      | raised =>
        exact unhandled_answers.mono fun answer es' herror => herror.leaves fun e he =>
          List.mem_cons_of_mem _ (List.mem_append_right es he)
      | response resp =>
        have hforwarded : Forwarded body (⟨.getEvent body.eventId, none⟩ :: es) :=
          (hresult resp rfl).mono (List.subset_cons_self _ _)
        exact persistEvent_leaves loads amount hforwarded

/-! ### Entries are about the submission -/

/-- An entry the operation appends is about the submission. -/
def GatewayOp.About (body : EventRequest) : GatewayOp → Prop
  | .audit _ accountId eventId _ => accountId = body.accountId ∧ eventId = body.eventId
  | _ => True

theorem GatewayOp.OfCall.about {o : GatewayOp} (h : o.OfCall) : o.About body := by
  cases o with
  | audit outcome accountId eventId detail => exact absurd h id
  | _ => trivial

theorem unhandled_about : unhandled.All (GatewayOp.About body) := ⟨trivial, fun _ => trivial⟩

theorem respond_about (loads : String → Option Json) (status : ℕ) (event : StoredEvent)
    (duplicate : Bool) : (respond loads status event duplicate).All (GatewayOp.About body) := by
  unfold respond
  cases event.toResponse loads duplicate with
  | some response => trivial
  | none => exact unhandled_about

theorem submitEvent_about (loads : String → Option Json) (maxRetries : ℕ) (body : EventRequest) :
    (submitEvent loads maxRetries body).All (GatewayOp.About body) := by
  simp only [submitEvent, GatewayProg.getEvent, GatewayProg.audit, GatewayProg.circuitState,
    perform_bind, pure_eq]
  refine ⟨trivial, fun existing => ?_⟩
  cases existing with
  | some existing => exact ⟨⟨rfl, rfl⟩, fun _ => respond_about loads 200 existing true⟩
  | none =>
    cases amountStr body.amount with
    | none => exact unhandled_about
    | some amount =>
      refine All.bind ((clientApplyTransaction_all _ _).mono fun _ h => h.about) fun result => ?_
      cases result with
      | unavailable => exact ⟨trivial, fun _ => ⟨⟨rfl, rfl⟩, fun _ => trivial⟩⟩
      | clientError resp =>
        refine ⟨⟨rfl, rfl⟩, fun _ => ?_⟩
        dsimp only
        split
        · trivial
        · exact unhandled_about
      | raised => exact unhandled_about
      | response resp =>
        refine ⟨trivial, fun now => ⟨trivial, fun created => ?_⟩⟩
        cases created with
        | true => exact ⟨⟨rfl, rfl⟩, fun _ => respond_about loads 201 _ false⟩
        | false =>
          refine ⟨trivial, fun existing => ?_⟩
          cases existing with
          | some existing => exact respond_about loads 200 existing true
          | none => exact unhandled_about

end

/-! ## The Account Service -/

/-- The transaction has an entry. -/
def AuditsTransaction (eventId : String) (es : List (Event AccountOp AccountOp.Ret)) : Prop :=
  ∃ outcome accountId detail, (outcome = "APPLIED" ∨ outcome = "DUPLICATE") ∧
    ⟨.audit outcome accountId eventId detail, ()⟩ ∈ es

/-- **`apply_transaction`.**  A transaction is not answered before it has an entry. -/
theorem applyTransaction_leaves (accountId : String) (body : TransactionRequest) :
    (applyTransaction accountId body).Ensures fun answer es =>
      ∀ status response, answer = .transaction status response →
        AuditsTransaction body.eventId es := by
  have hfail : (Prog.act AccountOp.traceId fun t => Prog.done (AccountAnswer.internalError t) :
      AccountProg AccountAnswer).Ensures fun answer _ =>
        ∀ status response, answer ≠ .transaction status response :=
    ensures_act.mpr fun _ => ensures_done.mpr fun _ _ h => by cases h
  simp only [applyTransaction, AccountProg.getTransaction, AccountProg.audit, AccountProg.now,
    AccountProg.insertTransaction, AccountProg.traceId, perform_bind, pure_eq]
  refine ensures_act.mpr fun existing => ?_
  cases existing with
  | some existing =>
    exact ensures_act.mpr fun _ => ensures_done.mpr fun _ _ _ =>
      ⟨_, _, _, .inr rfl, List.mem_cons_of_mem _ List.mem_cons_self⟩
  | none =>
    refine ensures_act.mpr fun now => ?_
    cases hstored : body.stored accountId now with
    | none => exact hfail.mono fun answer es h status response ha => absurd ha (h status response)
    | some tx =>
      refine ensures_act.mpr fun created => ?_
      cases created with
      | true =>
        refine ensures_act.mpr fun _ => ensures_done.mpr fun _ _ _ => ?_
        rw [← TransactionRequest.stored_eventId hstored]
        exact ⟨_, _, _, .inl rfl, List.mem_cons_of_mem _ (List.mem_cons_of_mem _
          (List.mem_cons_of_mem _ List.mem_cons_self))⟩
      | false =>
        refine ensures_act.mpr fun winner => ensures_act.mpr fun _ => ?_
        cases winner with
        | some winner =>
          exact ensures_done.mpr fun _ _ _ => ⟨_, _, _, .inr rfl, List.mem_cons_of_mem _
            (List.mem_cons_of_mem _ (List.mem_cons_of_mem _ (List.mem_cons_of_mem _
              List.mem_cons_self)))⟩
        | none =>
          exact hfail.mono fun answer es h status response ha => absurd ha (h status response)

theorem serve_leaves (accountId : String) (payload : TxPayload) :
    (serve accountId payload).Ensures fun answer es =>
      ∀ status response, answer = .transaction status response →
        AuditsTransaction payload.eventId es := by
  unfold serve
  cases accountRoute accountId with
  | account routed =>
    cases hvalid : TransactionRequest.validate payload with
    | some body =>
      rw [← (TransactionRequest.validate_fields hvalid).1]
      exact applyTransaction_leaves routed body
    | none => exact ensures_done.mpr fun _ _ h => by cases h
  | unmatched refusal => exact ensures_done.mpr fun _ _ h => by cases h
  | invalidUrl => exact ensures_act.mpr fun _ => ensures_done.mpr fun _ _ h => by cases h

/-- An entry the operation appends is about the event. -/
def AccountOp.About (eventId : String) : AccountOp → Prop
  | .audit _ _ other _ => other = eventId
  | _ => True

theorem serve_about (accountId : String) (payload : TxPayload) :
    (serve accountId payload).All (AccountOp.About payload.eventId) := by
  unfold serve
  cases accountRoute accountId with
  | unmatched refusal => trivial
  | invalidUrl => exact ⟨trivial, fun _ => trivial⟩
  | account routed =>
    cases hvalid : TransactionRequest.validate payload with
    | none => trivial
    | some body =>
      rw [← (TransactionRequest.validate_fields hvalid).1]
      simp only [applyTransaction, AccountProg.getTransaction, AccountProg.audit, AccountProg.now,
        AccountProg.insertTransaction, AccountProg.traceId, perform_bind, pure_eq]
      refine ⟨trivial, fun existing => ?_⟩
      cases existing with
      | some existing => exact ⟨rfl, fun _ => trivial⟩
      | none =>
        refine ⟨trivial, fun now => ?_⟩
        dsimp only
        cases hstored : body.stored routed now with
        | none => exact ⟨trivial, fun _ => trivial⟩
        | some tx =>
          refine ⟨trivial, fun created => ?_⟩
          cases created with
          | true => exact ⟨TransactionRequest.stored_eventId hstored, fun _ => trivial⟩
          | false =>
            refine ⟨trivial, fun winner => ⟨rfl, fun _ => ?_⟩⟩
            cases winner with
            | some winner => trivial
            | none => exact ⟨trivial, fun _ => trivial⟩

end EventLedger
