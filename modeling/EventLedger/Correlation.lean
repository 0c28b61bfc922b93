import EventLedger.AccountService
import EventLedger.ContextVariable

/-!
# Correlating responses

The framework runs the handler for unhandled exceptions in its outermost layer, around
the middleware and on the server's own `send` (`RunsHandlerOutside`).  That handler reads
the trace id from the context variable, which still holds the span of the request, so
the body of the structured 500 has the right one.  The headers are the wrapped `send`'s
doing, and the 500 does not pass it: a response can be correlated by its headers exactly
when the endpoint has begun it (`responses_correlate_iff`).
-/
namespace EventLedger

open Program Prog LabelledRun

/-! ## The layers of a service -/

/-- A `JSONResponse`. -/
structure JsonResponse where
  status : ℕ
  content : Json

/-- What the server sees: the middleware and what it wraps, and the handler of
`install_error_handlers` with its response. -/
inductive ServerOp where
  | inner (o : MiddlewareOp)
  | traceId
  | logException (service path errorType : String)
  | respond (response : JsonResponse)

/-- What they return. -/
abbrev ServerOp.Ret : ServerOp → Type
  | inner o => o.Ret
  | traceId => Option String
  | logException _ _ _ => Unit
  | respond _ => SendResult

/-- Code of the service's layers. -/
abbrev ServerProg := Prog ServerOp ServerOp.Ret

/-- An event of it. -/
abbrev ServerEvent := Event ServerOp ServerOp.Ret

/-- `_unhandled_exception`. -/
def unhandledException (service path errorType : String) : ServerProg JsonResponse := do
  let traceId ← perform .traceId
  let _ ← perform (.logException service path errorType)
  return ⟨500, internalErrorBody traceId⟩

/-- An event of the middleware, as the server sees it. -/
def inServer (e : MiddlewareEvent) : ServerEvent := ⟨.inner e.1, e.2⟩

/-- The headers a response of the layers below is begun with. -/
def startedHeaders : MiddlewareEvent → Option Headers
  | ⟨.send (.responseStart _ headers), _⟩ => some (headers.getD [])
  | _ => none

/-- What is sent after an exception: the handler's response, unless one has been begun before. -/
def AnswersUnlessStarted (inner : List MiddlewareEvent) (response : JsonResponse)
    (es : List ServerEvent) : Prop :=
  if inner.filterMap startedHeaders = [] then ∃ r, es = [⟨.respond response, r⟩] else es = []

/-- The framework's outermost layer: what the layers below return is returned; when they raise, the
handler is run, then its response is sent, and the exception goes on to the server. -/
structure RunsHandlerOutside
    (serve : MiddlewareProg AppEnd → ServerProg JsonResponse → ServerProg AppEnd) : Prop where
  returned : ∀ inner handler es, (serve inner handler).Trace es .returned →
    ∃ es', inner.Trace es' .returned ∧ es = es'.map inServer
  raised : ∀ inner handler es, (serve inner handler).Trace es .raised →
    ∃ es' es₁ response es₂, inner.Trace es' .raised ∧ handler.Trace es₁ response ∧
      AnswersUnlessStarted es' response es₂ ∧ es = es'.map inServer ++ (es₁ ++ es₂)

/-- The headers a response begins with, as the client gets them; `jsonHeaders` are those of a
`JSONResponse`. -/
def received (jsonHeaders : JsonResponse → Headers) : ServerEvent → Option Headers
  | ⟨.inner o, r⟩ => startedHeaders ⟨o, r⟩
  | ⟨.respond response, _⟩ => some (jsonHeaders response)
  | _ => none

/-- The body of a structured 500. -/
def errorBody : ServerEvent → Option Json
  | ⟨.respond response, _⟩ => some response.content
  | _ => none

/-- What the middleware and the application have done in a run. -/
def innerEvent : ServerEvent → Option MiddlewareEvent
  | ⟨.inner o, r⟩ => some ⟨o, r⟩
  | _ => none

/-- The run is one of a call in which the application has done this. -/
def Does (c : HttpCall) (e : Entropy) (as : List AppEvent) (result : AppEnd)
    (es : List ServerEvent) : Prop :=
  c.app.Trace as result ∧
    ∃ token start now, es.filterMap innerEvent = callEvents c (c.span e) token start now as

/-- The context variable, as the handler finds it. -/
def ServerMoves (e : Entropy) (before : Option TraceContext) (event : ServerEvent)
    (after : Option TraceContext) : Prop :=
  match event with
  | ⟨.inner o, r⟩ => ContextMoves e before ⟨o, r⟩ after
  | ⟨.traceId, id⟩ => getTraceId.run before = (id, after)
  | ⟨.logException _ _ _, _⟩ | ⟨.respond _, _⟩ => after = before

/-- Every response can be correlated: it has both headers of the request's span, and the body of a
structured 500 has its trace id. -/
structure Correlated (jsonHeaders : JsonResponse → Headers) (span : TraceContext)
    (es : List ServerEvent) : Prop where
  headers : ∀ headers ∈ es.filterMap (received jsonHeaders), traceHeaders span ⊆ headers
  bodies : ∀ body ∈ es.filterMap errorBody, body = internalErrorBody (some span.traceId)

/-! ## The responses of one request -/

/-- The headers of a response the application begins. -/
def appHeaders : AppEvent → Option Headers
  | ⟨.send (.responseStart _ headers), _⟩ => some (headers.getD [])
  | _ => none

/-- The application raises before it has begun a response. -/
def RaisesUnanswered (as : List AppEvent) (result : AppEnd) : Prop :=
  result = .raised ∧ as.filterMap appHeaders = []

theorem startedHeaders_carried (ctx : TraceContext) (event : AppEvent) :
    startedHeaders (carried ctx event) = (appHeaders event).map (· ++ traceHeaders ctx) := by
  obtain ⟨o, r⟩ := event
  cases o with
  | send message =>
    cases message with
    | responseStart status headers => rfl
    | other type body => rfl
  | setRoute route => rfl
  | ambient => rfl

/-- The responses of a call are those of the application, with the headers of the span. -/
theorem startedHeaders_callEvents (c : HttpCall) (ctx : TraceContext) (token : Token)
    (start now : ℚ) (as : List AppEvent) :
    (callEvents c ctx token start now as).filterMap startedHeaders =
      (as.filterMap appHeaders).map (· ++ traceHeaders ctx) := by
  have hclosing : ∀ state,
      (closing c.scope start now token state).filterMap startedHeaders = [] := by
    intro state
    rw [closing, List.filterMap_cons_none rfl, List.filterMap_cons_none rfl,
      List.filterMap_cons_none rfl]
    split
    · rfl
    · rfl
  have happ : ∀ as : List AppEvent, (as.map (carried ctx)).filterMap startedHeaders =
      (as.filterMap appHeaders).map (· ++ traceHeaders ctx) := by
    intro as
    rw [List.filterMap_map, List.map_filterMap]
    exact List.filterMap_congr fun event _ => startedHeaders_carried ctx event
  rw [callEvents, List.filterMap_cons_none rfl, List.filterMap_cons_none rfl,
    List.filterMap_cons_none rfl, List.filterMap_append, happ, hclosing, List.append_nil]

theorem received_inServer (jsonHeaders : JsonResponse → Headers) (es : List MiddlewareEvent) :
    (es.map inServer).filterMap (received jsonHeaders) = es.filterMap startedHeaders := by
  rw [List.filterMap_map]
  rfl

theorem errorBody_inServer (es : List MiddlewareEvent) :
    (es.map inServer).filterMap errorBody = [] := by
  rw [List.filterMap_map]
  exact List.filterMap_eq_nil_iff.mpr fun _ _ => rfl

theorem innerEvent_inServer (es : List MiddlewareEvent) :
    (es.map inServer).filterMap innerEvent = es := by
  rw [List.filterMap_map]
  exact List.filterMap_some

/-- What is sent after an exception is not the application's doing. -/
theorem AnswersUnlessStarted.innerEvent {inner : List MiddlewareEvent} {response : JsonResponse}
    {es : List ServerEvent} (h : AnswersUnlessStarted inner response es) :
    es.filterMap innerEvent = [] := by
  unfold AnswersUnlessStarted at h
  split at h
  · obtain ⟨r, rfl⟩ := h
    rfl
  · rw [h]
    rfl

theorem walk_inServer {e : Entropy} {before after : Option TraceContext}
    {es : List MiddlewareEvent} :
    Walk (ServerMoves e) before (es.map inServer) after ↔
      Walk (ContextMoves e) before es after := walk_map

theorem unhandledException_trace {service path errorType : String} {es : List ServerEvent}
    {response : JsonResponse}
    (h : (unhandledException service path errorType).Trace es response) :
    ∃ id, es = [⟨.traceId, id⟩, ⟨.logException service path errorType, ()⟩] ∧
      response = ⟨500, internalErrorBody id⟩ := by
  have hexact : (unhandledException service path errorType).Ensures fun response es =>
      ∃ id, es = [⟨.traceId, id⟩, ⟨.logException service path errorType, ()⟩] ∧
        response = ⟨500, internalErrorBody id⟩ :=
    ensures_act.mpr fun id => ensures_act.mpr fun _ => ensures_done.mpr ⟨id, rfl, rfl⟩
  exact ensures_iff.mp hexact es response h

section
variable {serve : MiddlewareProg AppEnd → ServerProg JsonResponse → ServerProg AppEnd}
  {jsonHeaders : JsonResponse → Headers} {c : HttpCall} {service path errorType : String}
  {e : Entropy} {before after : Option TraceContext} {es : List ServerEvent} {result : AppEnd}

variable (jsonHeaders) in
/-- **The responses of a request.**  What the application begins, with the headers of the request's
span; and if it raises before, the structured 500, with the headers of a `JSONResponse` and the
trace id of that span in its body. -/
theorem server_responses (hserve : RunsHandlerOutside serve) (hhttp : c.scope.type = "http")
    (hrun : (serve (ObservabilityMiddleware.call c)
      (unhandledException service path errorType)).Trace es result)
    (hwalk : Walk (ServerMoves e) before es after) :
    ∃ as, Does c e as result es ∧
      (RaisesUnanswered as result → ∃ response : JsonResponse,
        es.filterMap (received jsonHeaders) = [jsonHeaders response] ∧
        es.filterMap errorBody = [internalErrorBody (some (c.span e).traceId)]) ∧
      (¬ RaisesUnanswered as result →
        es.filterMap (received jsonHeaders) =
          (as.filterMap appHeaders).map (· ++ traceHeaders (c.span e)) ∧
        es.filterMap errorBody = []) := by
  cases result with
  | returned =>
    obtain ⟨es', hcall, rfl⟩ := hserve.returned _ _ _ hrun
    obtain ⟨ctx, token, start, now, as, has, rfl⟩ := (call_trace hhttp).mp hcall
    obtain ⟨rfl, -⟩ := walk_call (walk_inServer.mp hwalk)
    refine ⟨as, ⟨has, token, start, now, innerEvent_inServer _⟩, fun h => (by cases h.1),
      fun _ => ⟨?_, errorBody_inServer _⟩⟩
    rw [received_inServer, startedHeaders_callEvents]
  | raised =>
    obtain ⟨es', es₁, response, es₂, hcall, hhandler, hanswer, rfl⟩ := hserve.raised _ _ _ hrun
    obtain ⟨ctx, token, start, now, as, has, rfl⟩ := (call_trace hhttp).mp hcall
    obtain ⟨id, rfl, rfl⟩ := unhandledException_trace hhandler
    obtain ⟨t, hinner, hhandled⟩ := walk_append.mp hwalk
    obtain ⟨hctx, rfl⟩ := walk_call (walk_inServer.mp hinner)
    -- the handler still finds the span in the context variable
    obtain ⟨u, hread, -⟩ := walk_cons.mp hhandled
    have hid : some ctx.traceId = id := congrArg Prod.fst hread
    have hdoes : Does c e as .raised ((callEvents c ctx token start now as).map inServer ++
        ([⟨.traceId, id⟩, ⟨.logException service path errorType, ()⟩] ++ es₂)) := by
      refine ⟨has, token, start, now, ?_⟩
      rw [List.filterMap_append, List.filterMap_append, hanswer.innerEvent, innerEvent_inServer,
        hctx]
      exact List.append_nil _
    simp only [AnswersUnlessStarted, startedHeaders_callEvents, List.map_eq_nil_iff] at hanswer
    refine ⟨as, hdoes, fun h => ?_, fun h => ?_⟩
    · rw [if_pos h.2] at hanswer
      obtain ⟨r, rfl⟩ := hanswer
      refine ⟨⟨500, internalErrorBody id⟩, ?_, ?_⟩
      · rw [List.filterMap_append, received_inServer, startedHeaders_callEvents, h.2]
        rfl
      · rw [List.filterMap_append, errorBody_inServer, ← hctx, hid]
        rfl
    · rw [if_neg fun hnil => h ⟨rfl, hnil⟩] at hanswer
      subst hanswer
      refine ⟨?_, ?_⟩
      · rw [List.filterMap_append, received_inServer, startedHeaders_callEvents, ← hctx]
        exact List.append_nil _
      · rw [List.filterMap_append, errorBody_inServer]
        rfl

/-- **The structured 500.**  Its body has the trace id of the request's span, although it is built
after the middleware has reset the context. -/
theorem internal_error_traceId (hserve : RunsHandlerOutside serve) (hhttp : c.scope.type = "http")
    (hrun : (serve (ObservabilityMiddleware.call c)
      (unhandledException service path errorType)).Trace es result)
    (hwalk : Walk (ServerMoves e) before es after) :
    ∀ body ∈ es.filterMap errorBody, body = internalErrorBody (some (c.span e).traceId) := by
  obtain ⟨as, -, hunanswered, hanswered⟩ :=
    server_responses (fun _ => []) hserve hhttp hrun hwalk
  by_cases h : RaisesUnanswered as result
  · obtain ⟨response, -, hbody⟩ := hunanswered h
    rw [hbody]
    exact fun body hmem => List.mem_singleton.mp hmem
  · rw [(hanswered h).2]
    exact fun body hmem => absurd hmem List.not_mem_nil

/-- **Every response can be correlated, except the structured 500.**  In every run of the layers of
a service for an HTTP request, the responses carry the trace of the request's span exactly when the
endpoint does not raise before it has begun one. -/
theorem responses_correlate_iff (hserve : RunsHandlerOutside serve)
    (hheaders : ∀ response, ∀ header ∈ jsonHeaders response,
      header.1 ∈ [encode "content-length", encode "content-type"])
    (hhttp : c.scope.type = "http")
    (hrun : (serve (ObservabilityMiddleware.call c)
      (unhandledException service path errorType)).Trace es result)
    (hwalk : Walk (ServerMoves e) before es after) :
    ∃ as, Does c e as result es ∧
      (Correlated jsonHeaders (c.span e) es ↔ ¬ RaisesUnanswered as result) := by
  obtain ⟨as, has, hunanswered, hanswered⟩ :=
    server_responses jsonHeaders hserve hhttp hrun hwalk
  refine ⟨as, has, fun hcorrelated h => ?_, fun h => ⟨?_, ?_⟩⟩
  · obtain ⟨response, hresponse, -⟩ := hunanswered h
    have hsubset := hcorrelated.headers (jsonHeaders response)
      (by rw [hresponse]; exact List.mem_singleton_self _)
    have hmem := hheaders response _ (hsubset List.mem_cons_self)
    revert hmem
    show encode "traceparent" ∉ [encode "content-length", encode "content-type"]
    decide +kernel
  · rw [(hanswered h).1]
    intro headers hmem
    obtain ⟨own, -, rfl⟩ := List.mem_map.mp hmem
    exact List.subset_append_right _ _
  · exact internal_error_traceId hserve hhttp hrun hwalk

end

/-! ## An outermost layer -/

/-- The layers below, with a note whether a response has been begun. -/
def watched : MiddlewareProg AppEnd → Bool → ServerProg (Bool × AppEnd)
  | .done result, started => .done (started, result)
  | .act o k, started =>
    .act (.inner o) fun r => watched (k r) (started || (startedHeaders ⟨o, r⟩).isSome)

/-- Send the handler's response, unless one has been begun. -/
def answerOnce (handler : ServerProg JsonResponse) (started : Bool) : ServerProg AppEnd := do
  let response ← handler
  if started then return .raised
  else do
    let _ ← perform (.respond response)
    return .raised

/-- The error middleware of the framework. -/
def errorMiddleware (inner : MiddlewareProg AppEnd) (handler : ServerProg JsonResponse) :
    ServerProg AppEnd := do
  match ← watched inner false with
  | (_, .returned) => return .returned
  | (started, .raised) => answerOnce handler started

theorem watched_trace {p : MiddlewareProg AppEnd} {started begun : Bool} {es : List ServerEvent}
    {result : AppEnd} :
    (watched p started).Trace es (begun, result) ↔
      ∃ es', p.Trace es' result ∧ es = es'.map inServer ∧
        begun = (started || !(es'.filterMap startedHeaders).isEmpty) := by
  induction p generalizing es started with
  | done a =>
    rw [watched, trace_done]
    constructor
    · rintro ⟨rfl, h⟩
      cases h
      exact ⟨[], .refl _, rfl, (Bool.or_false _).symm⟩
    · rintro ⟨es', h, rfl, rfl⟩
      obtain ⟨rfl, rfl⟩ := trace_done.mp h
      exact ⟨rfl, Prod.ext (Bool.or_false started) rfl⟩
  | act o k ih =>
    have hbegun : ∀ (r : o.Ret) (es' : List MiddlewareEvent),
        (started || (startedHeaders ⟨o, r⟩).isSome ||
          !(es'.filterMap startedHeaders).isEmpty) =
        (started ||
          !((⟨o, r⟩ :: es' : List MiddlewareEvent).filterMap startedHeaders).isEmpty) := by
      intro r es'
      cases h : startedHeaders ⟨o, r⟩ with
      | none => rw [List.filterMap_cons_none h, Option.isSome_none, Bool.or_false]
      | some headers =>
        rw [List.filterMap_cons_some h, Option.isSome_some, Bool.or_true, Bool.true_or,
          List.isEmpty_cons, Bool.not_false, Bool.or_true]
    rw [watched, trace_act]
    constructor
    · rintro ⟨r, es', rfl, h⟩
      obtain ⟨es', hk, rfl, rfl⟩ := (ih r).mp h
      exact ⟨⟨o, r⟩ :: es', .act hk, rfl, hbegun r es'⟩
    · rintro ⟨es', h, rfl, rfl⟩
      obtain ⟨r, es', rfl, hk⟩ := trace_act.mp h
      exact ⟨r, es'.map inServer, rfl, (ih r).mpr ⟨es', hk, rfl, (hbegun r es').symm⟩⟩

theorem answerOnce_trace {handler : ServerProg JsonResponse} {inner : List MiddlewareEvent}
    {es : List ServerEvent} {result : AppEnd} :
    (answerOnce handler !(inner.filterMap startedHeaders).isEmpty).Trace es result ↔
      result = .raised ∧ ∃ es₁ response es₂, handler.Trace es₁ response ∧
        AnswersUnlessStarted inner response es₂ ∧ es = es₁ ++ es₂ := by
  have hrespond : ∀ response es₂, (if (!(inner.filterMap startedHeaders).isEmpty) = true then
        return .raised
      else do
        let _ ← perform (.respond response)
        return .raised : ServerProg AppEnd).Trace es₂ result ↔
      result = .raised ∧ AnswersUnlessStarted inner response es₂ := by
    intro response es₂
    rw [AnswersUnlessStarted]
    cases inner.filterMap startedHeaders with
    | nil =>
      constructor
      · intro h
        obtain ⟨r, es₃, rfl, hdone⟩ := trace_act.mp h
        obtain ⟨rfl, rfl⟩ := trace_done.mp hdone
        exact ⟨rfl, r, rfl⟩
      · rintro ⟨rfl, r, rfl⟩
        exact .act (.refl _)
    | cons headers rest =>
      constructor
      · intro h
        obtain ⟨rfl, rfl⟩ := trace_done.mp h
        exact ⟨rfl, rfl⟩
      · rintro ⟨rfl, rfl⟩
        exact .refl _
  rw [answerOnce, trace_bind]
  constructor
  · rintro ⟨es₁, response, es₂, hhandler, h, rfl⟩
    obtain ⟨hresult, hanswer⟩ := (hrespond response es₂).mp h
    exact ⟨hresult, es₁, response, es₂, hhandler, hanswer, rfl⟩
  · rintro ⟨hresult, es₁, response, es₂, hhandler, hanswer, rfl⟩
    exact ⟨es₁, response, es₂, hhandler, (hrespond response es₂).mpr ⟨hresult, hanswer⟩, rfl⟩

/-- Its runs: the layers below return, or they raise and the handler runs. -/
theorem errorMiddleware_trace {inner : MiddlewareProg AppEnd} {handler : ServerProg JsonResponse}
    {es : List ServerEvent} {result : AppEnd} :
    (errorMiddleware inner handler).Trace es result ↔
      ∃ es', inner.Trace es' result ∧
        (result = .returned ∧ es = es'.map inServer ∨
          result = .raised ∧ ∃ es₁ response es₂, handler.Trace es₁ response ∧
            AnswersUnlessStarted es' response es₂ ∧ es = es'.map inServer ++ (es₁ ++ es₂)) := by
  rw [errorMiddleware, trace_bind]
  constructor
  · rintro ⟨es₀, ⟨begun, result'⟩, es₁, hwatched, h, rfl⟩
    obtain ⟨es', hinner, rfl, rfl⟩ := watched_trace.mp hwatched
    cases result' with
    | returned =>
      obtain ⟨rfl, rfl⟩ := trace_done.mp h
      exact ⟨es', hinner, .inl ⟨rfl, List.append_nil _⟩⟩
    | raised =>
      obtain ⟨rfl, es₁, response, es₂, hhandler, hanswer, rfl⟩ := answerOnce_trace.mp h
      exact ⟨es', hinner, .inr ⟨rfl, es₁, response, es₂, hhandler, hanswer, rfl⟩⟩
  · rintro ⟨es', hinner, ⟨rfl, rfl⟩ | ⟨rfl, es₁, response, es₂, hhandler, hanswer, rfl⟩⟩
    · exact ⟨_, _, [], watched_trace.mpr ⟨es', hinner, rfl, rfl⟩, .refl _,
        (List.append_nil _).symm⟩
    · exact ⟨_, _, es₁ ++ es₂, watched_trace.mpr ⟨es', hinner, rfl, rfl⟩,
        answerOnce_trace.mpr ⟨rfl, es₁, response, es₂, hhandler, hanswer, rfl⟩, rfl⟩

theorem errorMiddleware_runs : RunsHandlerOutside errorMiddleware where
  returned inner handler es h := by
    obtain ⟨es', hinner, ⟨-, hes⟩ | ⟨hraised, -⟩⟩ := errorMiddleware_trace.mp h
    · exact ⟨es', hinner, hes⟩
    · cases hraised
  raised inner handler es h := by
    obtain ⟨es', hinner, ⟨hreturned, -⟩ | ⟨-, es₁, response, es₂, hanswer⟩⟩ :=
      errorMiddleware_trace.mp h
    · cases hreturned
    · exact ⟨es', es₁, response, es₂, hinner, hanswer⟩

/-- Whatever an application does with a request can be served, in any context. -/
theorem exists_served (c : HttpCall) (hhttp : c.scope.type = "http") (e : Entropy)
    (before : Option TraceContext) (service path errorType : String) {as : List AppEvent}
    {result : AppEnd} (has : c.app.Trace as result) :
    ∃ es after, (errorMiddleware (ObservabilityMiddleware.call c)
        (unhandledException service path errorType)).Trace es result ∧
      Walk (ServerMoves e) before es after := by
  obtain ⟨ctx, token, after, hwalk⟩ := exists_walk_call c e before 0 0 as
  obtain ⟨-, rfl⟩ := walk_call hwalk
  have hcall := (call_trace hhttp).mpr ⟨ctx, token, 0, 0, as, has, rfl⟩
  have hinner := walk_inServer.mpr hwalk
  cases result with
  | returned => exact ⟨_, _, errorMiddleware_trace.mpr ⟨_, hcall, .inl ⟨rfl, rfl⟩⟩, hinner⟩
  | raised =>
    -- the handler reads the span, logs, and answers if nothing has been sent
    have hhandler : (unhandledException service path errorType).Trace
        [⟨.traceId, some ctx.traceId⟩, ⟨.logException service path errorType, ()⟩]
        ⟨500, internalErrorBody (some ctx.traceId)⟩ := .act (.act (.refl _))
    obtain ⟨es₂, hanswer, hrest⟩ : ∃ es₂, AnswersUnlessStarted (callEvents c ctx token 0 0 as)
        ⟨500, internalErrorBody (some ctx.traceId)⟩ es₂ ∧
        Walk (ServerMoves e) (some ctx) es₂ (some ctx) := by
      unfold AnswersUnlessStarted
      split
      · exact ⟨_, ⟨.sent, rfl⟩, walk_singleton.mpr rfl⟩
      · exact ⟨[], rfl, .nil _⟩
    exact ⟨_, some ctx, errorMiddleware_trace.mpr
      ⟨_, hcall, .inr ⟨rfl, _, _, es₂, hhandler, hanswer, rfl⟩⟩,
      walk_append.mpr ⟨some ctx, hinner, .cons rfl (.cons rfl hrest)⟩⟩

/-- The headers of every structured 500. -/
def errorHeaders (_ : JsonResponse) : Headers :=
  [(encode "content-length", encode "114"), (encode "content-type", encode "application/json")]

theorem errorHeaders_names (response : JsonResponse) : ∀ header ∈ errorHeaders response,
    header.1 ∈ [encode "content-length", encode "content-type"] := by
  intro header hheader
  rcases List.mem_pair.mp hheader with rfl | rfl
  · exact List.mem_cons_self
  · exact List.mem_cons_of_mem _ List.mem_cons_self

theorem responses_correlate_iff_answered : ∃ (es : List ServerEvent) (after : Option TraceContext),
    (errorMiddleware (ObservabilityMiddleware.call (sampleCall "/health" (answering 200)))
      (unhandledException "event-gateway" "/health" "")).Trace es .returned ∧
    Walk (ServerMoves middlewareEnv.entropy) none es after ∧
    Correlated errorHeaders
      ((sampleCall "/health" (answering 200)).span middlewareEnv.entropy) es := by
  obtain ⟨es, after, hrun, hwalk⟩ := exists_served (sampleCall "/health" (answering 200)) rfl
    middlewareEnv.entropy none "event-gateway" "/health" "" answering_trace
  obtain ⟨as, -, hiff⟩ := responses_correlate_iff errorMiddleware_runs errorHeaders_names rfl
    hrun hwalk
  exact ⟨es, after, hrun, hwalk, hiff.mpr fun h => by cases h.1⟩

/-- An endpoint that raises: the client gets a 500 without an `x-trace-id`. -/
theorem internal_error_uncorrelated : ∃ (es : List ServerEvent) (after : Option TraceContext),
    (errorMiddleware (ObservabilityMiddleware.call (sampleCall "/audit" failing))
      (unhandledException "account-service" "/audit" "OverflowError")).Trace es .raised ∧
    Walk (ServerMoves middlewareEnv.entropy) none es after ∧
    es.filterMap errorBody = [internalErrorBody (some "abababababababababababababababab")] ∧
    es.filterMap (received errorHeaders) = [[(encode "content-length", encode "114"),
      (encode "content-type", encode "application/json")]] ∧
    ¬ Correlated errorHeaders ((sampleCall "/audit" failing).span middlewareEnv.entropy) es := by
  obtain ⟨es, after, hrun, hwalk⟩ := exists_served (sampleCall "/audit" failing) rfl
    middlewareEnv.entropy none "account-service" "/audit" "OverflowError"
    (show failing.Trace [⟨.ambient, 0⟩] .raised from .act (.refl _))
  obtain ⟨as, ⟨has, -⟩, hunanswered, -⟩ := server_responses errorHeaders errorMiddleware_runs rfl
    hrun hwalk
  obtain ⟨n, as, rfl, hdone⟩ := trace_act.mp has
  obtain ⟨rfl, -⟩ := trace_done.mp hdone
  obtain ⟨response, hresponse, hbody⟩ := hunanswered ⟨rfl, rfl⟩
  refine ⟨es, after, hrun, hwalk, ?_, hresponse, fun h => ?_⟩
  · rw [hbody]
    have hspan : ((sampleCall "/audit" failing).span middlewareEnv.entropy).traceId =
        "abababababababababababababababab" := by decide +kernel
    rw [hspan]
  · have hsubset := h.headers (errorHeaders response)
      (by rw [hresponse]; exact List.mem_singleton_self _)
    have hmem : (encode "x-trace-id",
        encode ((sampleCall "/audit" failing).span middlewareEnv.entropy).traceId) ∈
          errorHeaders response := hsubset (List.mem_cons_of_mem _ List.mem_cons_self)
    revert hmem
    show _ ∉ [(encode "content-length", encode "114"),
      (encode "content-type", encode "application/json")]
    decide +kernel

end EventLedger
