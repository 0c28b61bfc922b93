import EventLedger.LabelCardinality

/-!
# The context variable

The trace of a request is kept in a context variable.  `start_span` sets it, and so
does `set_context`, whose token the middleware keeps and resets in the end: the token
holds what `start_span` has left, so a call ends on the span of its own request
(`walk_call`), and the next code in the same context goes on with that trace.

A server that handles each request in a context of its own never sees the difference.
The results are about one context, and any number of requests and other code in it.
-/
namespace EventLedger

open Program Prog LabelledRun

/-! ## What a call does, event by event -/

/-- The headers that are added to a response. -/
def traceHeaders (ctx : TraceContext) : Headers :=
  [(encode "traceparent", encode (formatTraceparent ctx)),
    (encode "x-trace-id", encode ctx.traceId)]

/-- The `traceparent` header of the request. -/
def HttpCall.incoming (c : HttpCall) : Option String := c.scope.header (encode "traceparent")

/-- The span of the request. -/
def HttpCall.span (c : HttpCall) (e : Entropy) : TraceContext := spanContext c.incoming e

/-- What a step of the application is to the server. -/
def carried (ctx : TraceContext) : AppEvent → MiddlewareEvent
  | ⟨.send (.responseStart status headers), r⟩ =>
    ⟨.send (.responseStart status (some (headers.getD [] ++ traceHeaders ctx))), r⟩
  | ⟨.send (.other type body), r⟩ => ⟨.send (.other type body), r⟩
  | ⟨.setRoute route, r⟩ => ⟨.setRoute route, r⟩
  | ⟨.ambient, n⟩ => ⟨.ambient, n⟩

/-- What the call notes of it. -/
def CallState.note (state : CallState) : AppEvent → CallState
  | ⟨.send (.responseStart status _), _⟩ => { state with status := status }
  | ⟨.setRoute route, _⟩ => { state with route := some route }
  | _ => state

/-- The events of the `finally` block. -/
def closing (scope : Scope) (start now : ℚ) (token : Token) (state : CallState) :
    List MiddlewareEvent :=
  let path := routeLabel scope state.route
  ⟨.perfCounter, now⟩ ::
    ⟨.update (.requestsTotal (statusLabels scope.methodOf path state.status)), ()⟩ ::
    ⟨.update (.requestLatency (now - start) (pathLabels scope.methodOf path)), ()⟩ ::
    ((if 500 ≤ state.status then
        [⟨.update (.errorsTotal (pathLabels scope.methodOf path)), ()⟩] else []) ++
      [⟨.log
          { httpMethod := scope.methodOf
            httpPath := scope.path
            httpRoute := path
            httpStatus := state.status
            durationMs := round2 ((now - start) * 1000) }, ()⟩,
        ⟨.resetContext token, ()⟩])

/-- Running the application is its own steps, carried to the server and noted. -/
theorem runApp_trace (ctx : TraceContext) {app : App} {state state' : CallState}
    {es : List MiddlewareEvent} {result : AppEnd} :
    (runApp ctx app state).Trace es (state', result) ↔
      ∃ as, app.Trace as result ∧ es = as.map (carried ctx) ∧
        state' = as.foldl CallState.note state := by
  induction app generalizing state es with
  | done a =>
    rw [runApp, trace_done]
    constructor
    · rintro ⟨rfl, h⟩
      cases h
      exact ⟨[], .refl _, rfl, rfl⟩
    · rintro ⟨as, has, rfl, rfl⟩
      obtain ⟨rfl, rfl⟩ := trace_done.mp has
      exact ⟨rfl, rfl⟩
  | act o k ih =>
    -- one event of the server for one of the application
    have hone : ∀ (e : (r : o.Ret) → MiddlewareEvent) (next : o.Ret → CallState),
        (∀ r, e r = carried ctx ⟨o, r⟩) → (∀ r, next r = state.note ⟨o, r⟩) →
        ((∃ r es', es = e r :: es' ∧
            (runApp ctx (k r) (next r)).Trace es' (state', result)) ↔
          ∃ as, (Prog.act o k).Trace as result ∧ es = as.map (carried ctx) ∧
            state' = as.foldl CallState.note state) := by
      intro e next he hnext
      constructor
      · rintro ⟨r, es', rfl, h⟩
        obtain ⟨as, has, rfl, hstate⟩ := (ih r).mp h
        refine ⟨⟨o, r⟩ :: as, .act has, ?_, ?_⟩
        · rw [List.map_cons, he]
        · rw [hstate, List.foldl_cons, hnext]
      · rintro ⟨as, has, rfl, hstate⟩
        obtain ⟨r, as', rfl, hk⟩ := trace_act.mp has
        refine ⟨r, as'.map (carried ctx), ?_, (ih r).mpr ⟨as', hk, rfl, ?_⟩⟩
        · rw [List.map_cons, he]
        · rw [hstate, List.foldl_cons, hnext]
    cases o with
    | send message =>
      cases message with
      | responseStart status headers =>
        exact trace_act.trans (hone
          (fun r => carried ctx ⟨.send (.responseStart status headers), r⟩)
          (fun r => state.note ⟨.send (.responseStart status headers), r⟩)
          (fun _ => rfl) fun _ => rfl)
      | other type body =>
        exact trace_act.trans (hone (fun r => carried ctx ⟨.send (.other type body), r⟩)
          (fun _ => state) (fun _ => rfl) fun _ => rfl)
    | setRoute route =>
      exact trace_act.trans (hone (fun r => carried ctx ⟨.setRoute route, r⟩)
        (fun r => state.note ⟨.setRoute route, r⟩) (fun _ => rfl) fun _ => rfl)
    | ambient =>
      exact trace_act.trans (hone (fun n => carried ctx ⟨.ambient, n⟩) (fun _ => state)
        (fun _ => rfl) fun _ => rfl)

theorem finish_trace {scope : Scope} {start : ℚ} {token : Token} {state : CallState}
    {es : List MiddlewareEvent} :
    (finish scope start token state).Trace es () ↔
      ∃ now, es = closing scope start now token state := by
  have hexact : (finish scope start token state).Ensures fun _ es =>
      ∃ now, es = closing scope start now token state := by
    unfold finish
    refine ensures_act.mpr fun now => ensures_act.mpr fun _ => ensures_act.mpr fun _ => ?_
    by_cases h : 500 ≤ state.status
    · simp only [if_pos h]
      refine ensures_act.mpr fun _ => ensures_act.mpr fun _ => ensures_act.mpr fun _ =>
        ensures_done.mpr ⟨now, ?_⟩
      simp only [closing, if_pos h]
      rfl
    · simp only [if_neg h]
      refine ensures_act.mpr fun _ => ensures_act.mpr fun _ => ensures_done.mpr ⟨now, ?_⟩
      simp only [closing, if_neg h]
      rfl
  constructor
  · exact fun h => ensures_iff.mp hexact es () h
  · rintro ⟨now, rfl⟩
    unfold finish closing
    refine .act (.act (.act ?_))
    by_cases h : 500 ≤ state.status
    · simp only [if_pos h]
      exact .act (.act (.act (.refl _)))
    · simp only [if_neg h]
      exact .act (.act (.refl _))

/-- The events of a call: a span is begun and set, the application runs, and the `finally` block
closes. -/
def callEvents (c : HttpCall) (ctx : TraceContext) (token : Token) (start now : ℚ)
    (as : List AppEvent) : List MiddlewareEvent :=
  ⟨.startSpan c.incoming, ctx⟩ :: ⟨.setContext (some ctx), token⟩ ::
    ⟨.perfCounter, start⟩ :: (as.map (carried ctx) ++
      closing c.scope start now token (as.foldl CallState.note ⟨500, none⟩))

theorem call_events {c : HttpCall} (hhttp : c.scope.type = "http") :
    (ObservabilityMiddleware.call c).Ensures fun result es => ∃ ctx token start now as,
      c.app.Trace as result ∧ es = callEvents c ctx token start now as := by
  rw [ObservabilityMiddleware.call, if_neg (not_not_intro hhttp)]
  refine ensures_act.mpr fun ctx => ensures_act.mpr fun token => ensures_act.mpr fun start => ?_
  have happ : (runApp ctx c.app ⟨500, none⟩).Ensures fun b es => ∃ as, c.app.Trace as b.2 ∧
      es = as.map (carried ctx) ∧ b.1 = as.foldl CallState.note ⟨500, none⟩ :=
    ensures_iff.mpr fun es b h => (runApp_trace ctx).mp h
  refine happ.bind ?_
  rintro ⟨_, result⟩ _ ⟨as, has, rfl, rfl⟩
  refine (ensures_iff.mpr fun es _ h => finish_trace.mp h).bind ?_
  rintro _ _ ⟨now, rfl⟩
  refine ensures_done.mpr ⟨ctx, token, start, now, as, has, ?_⟩
  rw [List.append_nil]
  rfl

/-- **One call.**  The runs of a call are those of the application, between the events that open and
close it. -/
theorem call_trace {c : HttpCall} (hhttp : c.scope.type = "http") {es : List MiddlewareEvent}
    {result : AppEnd} :
    (ObservabilityMiddleware.call c).Trace es result ↔
      ∃ ctx token start now as, c.app.Trace as result ∧
        es = callEvents c ctx token start now as := by
  constructor
  · exact fun h => ensures_iff.mp (call_events hhttp) es result h
  · rintro ⟨ctx, token, start, now, as, has, rfl⟩
    rw [ObservabilityMiddleware.call, if_neg (not_not_intro hhttp)]
    refine .act (.act (.act ?_))
    show Trace (runApp ctx c.app ⟨500, none⟩ >>= _) _ _
    refine trace_bind.mpr ⟨_, _, _, (runApp_trace ctx).mpr ⟨as, has, rfl, rfl⟩, ?_, rfl⟩
    exact trace_bind.mpr ⟨_, (), [], finish_trace.mpr ⟨now, rfl⟩, .refl _,
      (List.append_nil _).symm⟩

/-! ## The context variable over one call -/

/-- How an event moves the context variable: an operation of the middleware as the function it
calls does, a step of the application, nested requests among them, in any way. -/
def ContextMoves (e : Entropy) (before : Option TraceContext) (event : MiddlewareEvent)
    (after : Option TraceContext) : Prop :=
  match event with
  | ⟨.startSpan incoming, ctx⟩ => (startSpan incoming e).run before = (ctx, after)
  | ⟨.setContext ctx, token⟩ => (setContext ctx).run before = (token, after)
  | ⟨.resetContext token, _⟩ => (resetContext token).run before = ((), after)
  | ⟨.send _, _⟩ | ⟨.setRoute _, _⟩ | ⟨.ambient, _⟩ => True
  | ⟨.perfCounter, _⟩ | ⟨.update _, _⟩ | ⟨.log _, _⟩ => after = before

section
variable {e : Entropy} {before after : Option TraceContext}

/-- The steps of the application leave the variable open. -/
theorem contextMoves_carried (ctx : TraceContext) (event : AppEvent) :
    ContextMoves e before (carried ctx event) after := by
  obtain ⟨o, r⟩ := event
  cases o with
  | send message =>
    cases message with
    | responseStart status headers => exact trivial
    | other type body => exact trivial
  | setRoute route => exact trivial
  | ambient => exact trivial

/-- The `finally` block ends with the reset, and leaves the variable alone before. -/
theorem closing_eq (scope : Scope) (start now : ℚ) (token : Token) (state : CallState) :
    ∃ es, closing scope start now token state = es ++ [⟨.resetContext token, ()⟩] ∧
      ∀ event ∈ es, ∀ t, ContextMoves e t event t := by
  refine ⟨_, (List.append_assoc (_ :: _ :: _ :: _) [_] [_]).symm, ?_⟩
  intro event hevent t
  simp only [List.mem_append, List.mem_cons, List.not_mem_nil, or_false] at hevent
  rcases hevent with (rfl | rfl | rfl | hevent) | rfl
  · exact rfl
  · exact rfl
  · exact rfl
  · split at hevent
    · rw [List.mem_singleton.mp hevent]
      exact rfl
    · cases hevent
  · exact rfl

/-- The `finally` block puts back what the token holds. -/
theorem walk_closing {scope : Scope} {start now : ℚ} {token : Token} {state : CallState} :
    Walk (ContextMoves e) before (closing scope start now token state) after ↔ after = token := by
  obtain ⟨es, hes, hkeep⟩ := closing_eq (e := e) scope start now token state
  rw [hes, walk_append]
  constructor
  · rintro ⟨u, -, hreset⟩
    exact (congrArg Prod.snd (walk_singleton.mp hreset)).symm
  · rintro rfl
    exact ⟨before, walk_refl fun event hevent => hkeep event hevent before,
      walk_singleton.mpr rfl⟩

/-- **The context after a call.**  Whatever it was before, and whatever the application makes of it,
a call leaves the span of its own request. -/
theorem walk_call {c : HttpCall} {ctx : TraceContext} {token : Token} {start now : ℚ}
    {as : List AppEvent}
    (h : Walk (ContextMoves e) before (callEvents c ctx token start now as) after) :
    ctx = c.span e ∧ after = some ctx := by
  rw [callEvents] at h
  obtain ⟨s, hspan, h⟩ := walk_cons.mp h
  obtain ⟨t, hset, h⟩ := walk_cons.mp h
  obtain ⟨u, -, h⟩ := walk_cons.mp h
  obtain ⟨v, -, hclosing⟩ := walk_append.mp h
  -- the token is what `start_span` has set
  have hctx : c.span e = ctx := congrArg Prod.fst hspan
  have hs : some (c.span e) = s := congrArg Prod.snd hspan
  have htoken : s = token := congrArg Prod.fst hset
  refine ⟨hctx.symm, ?_⟩
  rw [walk_closing.mp hclosing, ← htoken, ← hs, hctx]

/-- Every run of the application is part of such a call. -/
theorem exists_walk_call (c : HttpCall) (e : Entropy) (before : Option TraceContext)
    (start now : ℚ) (as : List AppEvent) :
    ∃ ctx token after,
      Walk (ContextMoves e) before (callEvents c ctx token start now as) after := by
  refine ⟨c.span e, some (c.span e), some (c.span e),
    .cons rfl (.cons rfl (.cons rfl (walk_append.mpr ⟨_, walk_refl ?_, walk_closing.mpr rfl⟩)))⟩
  intro event hevent
  obtain ⟨a, -, rfl⟩ := List.mem_map.mp hevent
  exact contextMoves_carried _ a

end

/-! ## Requests handled in one context -/

/-- An HTTP request that has been served: the random bytes its span was begun with, what was done,
and how it ended. -/
structure HandledCall where
  call : HttpCall
  http : call.scope.type = "http"
  entropy : Entropy
  events : List MiddlewareEvent
  result : AppEnd
  ran : (ObservabilityMiddleware.call call).Trace events result

/-- The span it was served with. -/
def HandledCall.span (h : HandledCall) : TraceContext := h.call.span h.entropy

/-- The context variable before and after the request. -/
def HandledCall.Moves (before : Option TraceContext) (h : HandledCall)
    (after : Option TraceContext) : Prop :=
  Walk (ContextMoves h.entropy) before h.events after

/-- Requests served one after the other in one context, with the contexts they leave. -/
inductive Served : Option TraceContext → List HandledCall → List (Option TraceContext) → Prop
  | nil (before : Option TraceContext) : Served before [] []
  | cons {before after : Option TraceContext} {h : HandledCall} {hs : List HandledCall}
      {afters : List (Option TraceContext)} (first : h.Moves before after)
      (rest : Served after hs afters) : Served before (h :: hs) (after :: afters)

/-- A context is as it was: to `get_context`, in the trace id of log lines and in the headers of
outbound requests. -/
structure AsFound (before after : Option TraceContext) : Prop where
  context : (getContext.run after).1 = (getContext.run before).1
  traceId : (getTraceId.run after).1 = (getTraceId.run before).1
  headers : (outboundHeaders.run after).1 = (outboundHeaders.run before).1

/-- The context is already the span that such a request begins: it has the drawn span id, and the
trace the header carries, or the drawn one. -/
def AlreadyBegun (before : Option TraceContext) (incoming : Option String) (e : Entropy) : Prop :=
  ∃ ctx, before = some ctx ∧ ctx.spanId = e.newSpanId ∧
    ((∃ header parent, incoming = some header ∧ Carries header ctx.traceId parent ∧
        ctx.parentSpanId = some parent) ∨
      (¬ ∃ header t s, incoming = some header ∧ Carries header t s) ∧
        ctx.traceId = e.newTraceId ∧ ctx.parentSpanId = none)

theorem asFound_iff {before after : Option TraceContext} :
    AsFound before after ↔ after = before := by
  constructor
  · exact fun h => h.context
  · rintro rfl
    exact ⟨rfl, rfl, rfl⟩

theorem alreadyBegun_iff {before : Option TraceContext} {incoming : Option String} {e : Entropy} :
    AlreadyBegun before incoming e ↔ before = some (spanContext incoming e) := by
  by_cases hcarries : ∃ header t s, incoming = some header ∧ Carries header t s
  · obtain ⟨header, t, s, rfl, hheader⟩ := hcarries
    have hspan : spanContext (some header) e = ⟨t, e.newSpanId, some s⟩ := by
      rw [spanContext, parseTraceparent_iff.mpr ⟨t, s, hheader, rfl⟩]
    rw [hspan]
    constructor
    · rintro ⟨⟨t', id, parent⟩, rfl, rfl, ⟨header', s', ⟨⟩, hheader', hparent⟩ | ⟨hnone, -⟩⟩
      · have hsame := parseTraceparent_iff.mpr ⟨t', s', hheader', rfl⟩
        rw [parseTraceparent_iff.mpr ⟨t, s, hheader, rfl⟩] at hsame
        cases hsame
        cases hparent
        rfl
      · exact absurd ⟨header, t, s, rfl, hheader⟩ hnone
    · rintro rfl
      exact ⟨_, rfl, rfl, .inl ⟨header, s, rfl, hheader, rfl⟩⟩
  · have hparse : parseTraceparent incoming = none := by
      cases incoming with
      | none => rfl
      | some header =>
        refine Option.eq_none_iff_forall_not_mem.mpr fun ctx hctx => hcarries ?_
        obtain ⟨t, s, hheader, -⟩ := parseTraceparent_iff.mp hctx
        exact ⟨header, t, s, rfl, hheader⟩
    have hspan : spanContext incoming e = ⟨e.newTraceId, e.newSpanId, none⟩ := by
      rw [spanContext, hparse]
    rw [hspan]
    constructor
    · rintro ⟨⟨t, id, parent⟩, rfl, rfl, ⟨header, s, rfl, hheader, -⟩ | ⟨-, rfl, rfl⟩⟩
      · exact absurd ⟨header, t, s, rfl, hheader⟩ hcarries
      · rfl
    · rintro rfl
      exact ⟨_, rfl, rfl, .inr ⟨hcarries, rfl, rfl⟩⟩

/-- A request leaves its own span behind. -/
theorem HandledCall.Moves.after_eq {h : HandledCall} {before after : Option TraceContext}
    (hmoves : h.Moves before after) : after = some h.span := by
  obtain ⟨ctx, token, start, now, as, -, hevents⟩ := (call_trace h.http).mp h.ran
  rw [HandledCall.Moves, hevents] at hmoves
  obtain ⟨rfl, hafter⟩ := walk_call hmoves
  exact hafter

/-- So do requests served one after the other. -/
theorem Served.afters_eq {before : Option TraceContext} {hs : List HandledCall}
    {afters : List (Option TraceContext)} (h : Served before hs afters) :
    afters = hs.map fun h => some h.span := by
  induction h with
  | nil before => rfl
  | cons first rest ih => rw [List.map_cons, ih, first.after_eq]

/-- Whatever an application does with a request can be served in any context. -/
theorem exists_handledCall (c : HttpCall) (http : c.scope.type = "http") (e : Entropy)
    (before : Option TraceContext) {as : List AppEvent} {result : AppEnd}
    (has : c.app.Trace as result) :
    ∃ h : HandledCall, ∃ after, h.call = c ∧ h.entropy = e ∧ h.result = result ∧
      h.Moves before after := by
  obtain ⟨ctx, token, after, hwalk⟩ := exists_walk_call c e before 0 0 as
  exact ⟨⟨c, http, e, _, result, (call_trace http).mpr ⟨ctx, token, 0, 0, as, has, rfl⟩⟩, after,
    rfl, rfl, rfl, hwalk⟩

/-- **The context is not put back.**  Of requests served one after the other in one context, each
finds the context they were begun in, and leaves it so, exactly when that context already is the
span of every one of them. -/
theorem context_restored_iff {before : Option TraceContext} {hs : List HandledCall}
    {afters : List (Option TraceContext)} (h : Served before hs afters) :
    (∀ after ∈ afters, AsFound before after) ↔
      ∀ handled ∈ hs, AlreadyBegun before handled.call.incoming handled.entropy := by
  rw [h.afters_eq, List.forall_mem_map]
  refine forall₂_congr fun handled _ => ?_
  rw [asFound_iff, alreadyBegun_iff, eq_comm]
  rfl

/-- The steps of an application that answers 200. -/
def answeringSteps : List AppEvent :=
  [⟨.send (.responseStart 200 none), .sent⟩, ⟨.send (.other "http.response.body" []), .sent⟩]

theorem answering_trace : (answering 200).Trace answeringSteps .returned := .act (.act (.refl _))

/-- Two requests in a fresh context. -/
theorem context_restored_iff_fresh : ∃ (first second : HandledCall) (t u : Option TraceContext),
    Served none [first, second] [t, u] ∧
    ¬ (AlreadyBegun none first.call.incoming first.entropy) ∧
    ¬ ∀ after ∈ [t, u], AsFound none after := by
  obtain ⟨first, t, -, -, -, hfirst⟩ := exists_handledCall (sampleCall "/ok" (answering 200)) rfl
    middlewareEnv.entropy none answering_trace
  obtain ⟨second, u, -, -, -, hsecond⟩ := exists_handledCall (sampleCall "/ok" (answering 200)) rfl
    middlewareEnv.entropy t answering_trace
  have hserved : Served none [first, second] [t, u] := .cons hfirst (.cons hsecond (.nil u))
  have hfresh : ¬ AlreadyBegun none first.call.incoming first.entropy := by
    rintro ⟨ctx, ⟨⟩, -⟩
  exact ⟨first, second, t, u, hserved, hfresh,
    fun h => hfresh ((context_restored_iff hserved).mp h first List.mem_cons_self)⟩

/-- After a request without a `traceparent` header, served in a fresh context, log lines carry its
trace id and outbound requests its span. -/
theorem context_left_behind : ∃ (h : HandledCall) (after : Option TraceContext),
    h.call.scope.method = some "GET" ∧ h.call.incoming = none ∧ h.result = .returned ∧
    h.Moves none after ∧
    (getContext.run after).1 ≠ none ∧
    (getTraceId.run after).1 = some "abababababababababababababababab" ∧
    (outboundHeaders.run after).1 =
      [("traceparent", "00-abababababababababababababababab-abababababababab-01")] ∧
    ¬ AsFound none after := by
  obtain ⟨h, after, hcall, hentropy, hresult, hmoves⟩ := exists_handledCall
    (sampleCall "/ok" (answering 200)) rfl middlewareEnv.entropy none answering_trace
  have hincoming : h.call.incoming = none := by
    rw [hcall]
    rfl
  have hspan : h.span = ⟨"abababababababababababababababab", "abababababababab", none⟩ := by
    rw [HandledCall.span, HttpCall.span, hincoming, hentropy]
    decide +kernel
  have hafter := hmoves.after_eq
  rw [hspan] at hafter
  subst hafter
  refine ⟨h, _, by rw [hcall]; rfl, hincoming, hresult, hmoves, Option.some_ne_none _, rfl, ?_, ?_⟩
  · decide +kernel
  · rw [asFound_iff]
    exact Option.some_ne_none _

end EventLedger
