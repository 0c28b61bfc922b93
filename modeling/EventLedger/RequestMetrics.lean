import EventLedger.Middleware

/-!
# Requests and their metrics

Whatever the application does, a call of the middleware that has ended has counted its
request once, under the method, the path of the route it was matched to, and the last
status it began a response with, or 500 (`call_counts`).  The metrics only add up what
all calls did, so whenever no request is in progress they agree (`metrics_agree`).

The three updates of a call are three steps, with those of other calls between them.
While requests are in progress the metrics may therefore differ by what these owe.
-/
namespace EventLedger

open Program Prog LabelledRun OrderedDict DecimalDigits

/-! ## What a call has done -/

/-- An event of the middleware. -/
abbrev MiddlewareEvent := Event MiddlewareOp MiddlewareOp.Ret

/-- The last of what events of a kind say. -/
def lastOf {γ β : Type} (f : γ → Option β) (es : List γ) : Option β := (es.filterMap f).getLast?

theorem lastOf_append {γ β : Type} (f : γ → Option β) (es es' : List γ) :
    lastOf f (es ++ es') = (lastOf f es').or (lastOf f es) := by
  rw [lastOf, List.filterMap_append, List.getLast?_append]
  rfl

theorem lastOf_cons {γ β : Type} (f : γ → Option β) (e : γ) (es : List γ) :
    lastOf f (e :: es) = (lastOf f es).or (f e) := by
  have h := lastOf_append f [e] es
  rw [List.singleton_append] at h
  rw [h]
  congr 1
  cases he : f e with
  | none => simp [lastOf, he]
  | some b => simp [lastOf, he]

/-- The status a response was begun with. -/
def startedStatus : MiddlewareEvent → Option ℕ
  | ⟨.send (.responseStart status _), _⟩ => some status
  | _ => none

/-- The route the router has set. -/
def routed : MiddlewareEvent → Option Route
  | ⟨.setRoute route, _⟩ => some route
  | _ => none

/-- The update of the registry. -/
def updated : MiddlewareEvent → Option MetricUpdate
  | ⟨.update u, _⟩ => some u
  | _ => none

/-- The updates a call makes. -/
def callUpdates (method path : String) (status : ℕ) (duration : ℚ) : List MetricUpdate :=
  [.requestsTotal (statusLabels method path status),
    .requestLatency duration (pathLabels method path)] ++
    if 500 ≤ status then [.errorsTotal (pathLabels method path)] else []

theorem sendWrapper_ensures (ctx : TraceContext) (state : CallState) (message : Message) :
    (sendWrapper ctx state message).Ensures fun result es =>
      result.1.status = (lastOf startedStatus es).getD state.status ∧
      result.1.route = state.route ∧ lastOf routed es = none ∧ es.filterMap updated = [] := by
  cases message with
  | responseStart status headers =>
    refine ensures_act.mpr fun r => ensures_done.mpr ?_
    exact ⟨rfl, rfl, rfl, rfl⟩
  | other type body =>
    refine ensures_act.mpr fun r => ensures_done.mpr ?_
    exact ⟨rfl, rfl, rfl, rfl⟩

/-- **The application.**  While it runs, the call notes the last status and the last route, and
leaves the metrics alone. -/
theorem runApp_ensures (ctx : TraceContext) (app : App) (state : CallState) :
    (runApp ctx app state).Ensures fun result es =>
      result.1.status = (lastOf startedStatus es).getD state.status ∧
      result.1.route = (lastOf routed es).or state.route ∧ es.filterMap updated = [] := by
  induction app generalizing state with
  | done result => exact ensures_done.mpr ⟨rfl, rfl, rfl⟩
  | act o k ih =>
    cases o with
    | send message =>
      rw [runApp]
      refine (sendWrapper_ensures ctx state message).bind ?_
      rintro ⟨state', r⟩ es ⟨hstatus, hroute, hrouted, hupdated⟩
      refine (ih r state').mono ?_
      rintro result es' ⟨hstatus', hroute', hupdated'⟩
      refine ⟨?_, ?_, ?_⟩
      · rw [hstatus', hstatus, lastOf_append, Option.getD_or]
      · rw [hroute', hroute, lastOf_append, hrouted, Option.or_none]
      · rw [List.filterMap_append, hupdated, hupdated']
        rfl
    | setRoute route =>
      refine ensures_act.mpr fun r => (ih () { state with route := some route }).mono ?_
      rintro result es ⟨hstatus, hroute, hupdated⟩
      refine ⟨?_, ?_, hupdated⟩
      · rw [hstatus, lastOf_cons, Option.getD_or]
        rfl
      · rw [hroute, lastOf_cons, Option.or_assoc]
        rfl
    | ambient =>
      refine ensures_act.mpr fun r => (ih r state).mono ?_
      rintro result es ⟨hstatus, hroute, hupdated⟩
      refine ⟨?_, ?_, hupdated⟩
      · rw [hstatus, lastOf_cons, Option.getD_or]
        rfl
      · rw [hroute, lastOf_cons, Option.or_assoc]
        rfl

/-- The statements of the `finally` block update the metrics as the call's state says. -/
theorem finish_ensures (scope : Scope) (start : ℚ) (token : Token) (state : CallState) :
    (finish scope start token state).Ensures fun _ es =>
      lastOf startedStatus es = none ∧ lastOf routed es = none ∧
      ∃ duration, es.filterMap updated =
        callUpdates scope.methodOf (routeLabel scope state.route) state.status duration := by
  unfold finish
  refine ensures_act.mpr fun now => ensures_act.mpr fun _ => ensures_act.mpr fun _ => ?_
  by_cases h : 500 ≤ state.status
  · simp only [if_pos h]
    refine ensures_act.mpr fun _ => ensures_act.mpr fun _ => ensures_act.mpr fun _ =>
      ensures_done.mpr ⟨rfl, rfl, now - start, ?_⟩
    rw [callUpdates, if_pos h]
    rfl
  · simp only [if_neg h]
    refine ensures_act.mpr fun _ => ensures_act.mpr fun _ =>
      ensures_done.mpr ⟨rfl, rfl, now - start, ?_⟩
    rw [callUpdates, if_neg h]
    rfl

/-- **One call.**  A call that has ended, in whatever way, has counted its request once: under its
method, its route, and the last status it began a response with, or 500 if it began none. -/
theorem call_counts (c : HttpCall) (hhttp : c.scope.type = "http") :
    (ObservabilityMiddleware.call c).Ensures fun _ es => ∃ duration, es.filterMap updated =
      callUpdates c.scope.methodOf (routeLabel c.scope (lastOf routed es))
        ((lastOf startedStatus es).getD 500) duration := by
  rw [ObservabilityMiddleware.call, if_neg (not_not_intro hhttp)]
  refine ensures_act.mpr fun ctx => ensures_act.mpr fun token => ensures_act.mpr fun start => ?_
  refine (runApp_ensures ctx c.app ⟨500, none⟩).bind ?_
  rintro ⟨state, result⟩ es ⟨hstatus, hroute, hupdated⟩
  refine (finish_ensures c.scope start token state).bind ?_
  rintro _ es' ⟨hstarted, hrouted, duration, hupdates⟩
  refine ensures_done.mpr ⟨duration, ?_⟩
  have hcall : ∀ rest, lastOf routed (⟨.startSpan (c.scope.header (encode "traceparent")), ctx⟩ ::
      ⟨.setContext (some ctx), token⟩ :: ⟨.perfCounter, start⟩ :: rest) = lastOf routed rest :=
    fun _ => rfl
  have hcall' : ∀ rest, lastOf startedStatus
      (⟨.startSpan (c.scope.header (encode "traceparent")), ctx⟩ ::
        ⟨.setContext (some ctx), token⟩ :: ⟨.perfCounter, start⟩ :: rest) =
      lastOf startedStatus rest := fun _ => rfl
  rw [hcall, hcall', List.append_nil, lastOf_append, lastOf_append, hstarted, hrouted,
    Option.none_or, Option.none_or, ← hstatus]
  rw [Option.or_none] at hroute
  rw [← hroute, ← hupdates]
  show (es ++ es').filterMap updated = _
  rw [List.filterMap_append, hupdated, List.nil_append]

/-- The application by itself leaves the metrics alone. -/
theorem plain_all (app : App) : (app.interpret plainOp).All fun o => ∀ u, o ≠ .update u := by
  induction app with
  | done result => trivial
  | act o k ih =>
    refine All.bind ?_ ih
    cases o with
    | send message => exact ⟨fun u h => (by cases h), fun _ => trivial⟩
    | setRoute route => exact ⟨fun u h => (by cases h), fun _ => trivial⟩
    | ambient => exact ⟨fun u h => (by cases h), fun _ => trivial⟩

theorem updated_eq_some {e : MiddlewareEvent} {u : MetricUpdate} (h : updated e = some u) :
    e.1 = .update u := by
  obtain ⟨o, r⟩ := e
  cases o with
  | update u' =>
    cases h
    rfl
  | startSpan _ | setContext _ | resetContext _ | perfCounter | send _ | setRoute _ | ambient
    | log _ => cases h

/-- A call that is no HTTP request leaves the metrics alone. -/
theorem call_plain (c : HttpCall) (hhttp : c.scope.type ≠ "http") :
    (ObservabilityMiddleware.call c).Ensures fun _ es => es.filterMap updated = [] := by
  rw [ObservabilityMiddleware.call, if_pos hhttp]
  refine (plain_all c.app).ensures.mono fun _ es h => ?_
  rw [List.filterMap_eq_nil_iff]
  intro e he
  cases hu : updated e with
  | none => rfl
  | some u => exact absurd (updated_eq_some hu) (h e he u)

/-! ## What the metrics hold -/

/-- The counted requests with a method and a path, over the statuses `P` selects. -/
def requestsOver (r : MetricsRegistry ℚ) (method path : String) (P : String → Bool) : ℚ :=
  r.requestsTotal.values.total fun key =>
    decide (key.labels.get methodLabel = some method) &&
      decide (key.labels.get pathLabel = some path) && (key.labels.get statusLabel).any P

/-- The latency histogram's count. -/
def latencyCount (r : MetricsRegistry ℚ) (method path : String) : ℕ :=
  r.requestLatency.totals.value (labelsKey (pathLabels method path))

/-- The counted errors. -/
def errorsCount (r : MetricsRegistry ℚ) (method path : String) : ℚ :=
  r.errorsTotal.values.value (labelsKey (pathLabels method path))

/-- The label text of a status that is an error. -/
def isErrorText (status : String) : Bool := decide (500 ≤ readDigits status.toList)

theorem isErrorText_statusText (status : ℕ) :
    isErrorText (statusText status) = decide (500 ≤ status) := by
  rw [isErrorText, statusText, String.toList_ofList, readDigits_natDigits]

theorem statusText_inj {status status' : ℕ} :
    statusText status = statusText status' ↔ status = status' := by
  constructor
  · intro h
    have hdigits := congrArg (fun s : String => readDigits s.toList) h
    simpa [statusText] using hdigits
  · rintro rfl
    rfl

theorem get_statusLabels (method path : String) (status : ℕ) :
    (statusLabels method path status).get methodLabel = some method ∧
      (statusLabels method path status).get pathLabel = some path ∧
      (statusLabels method path status).get statusLabel = some (statusText status) :=
  ⟨rfl, rfl, rfl⟩

theorem get_pathLabels (method path : String) :
    (pathLabels method path).get methodLabel = some method ∧
      (pathLabels method path).get pathLabel = some path :=
  ⟨rfl, rfl⟩

/-- Methods and paths tell the label sets apart. -/
theorem labelsKey_pathLabels_inj {method path method' path' : String} :
    labelsKey (pathLabels method path) = labelsKey (pathLabels method' path') ↔
      method = method' ∧ path = path' := by
  constructor
  · intro h
    obtain ⟨hm, hp⟩ := get_pathLabels method path
    obtain ⟨hm', hp'⟩ := get_pathLabels method' path'
    rw [← get_labelsKey, h, get_labelsKey, hm'] at hm
    rw [← get_labelsKey, h, get_labelsKey, hp'] at hp
    exact ⟨(Option.some.inj hm).symm, (Option.some.inj hp).symm⟩
  · rintro ⟨rfl, rfl⟩
    rfl

section
variable (method path : String)

/-- What an update adds to the counted requests. -/
def requestsWeight (P : String → Bool) : MetricUpdate → ℚ
  | .requestsTotal labels =>
    if decide (labels.get methodLabel = some method) &&
      decide (labels.get pathLabel = some path) && (labels.get statusLabel).any P then 1 else 0
  | _ => 0

/-- What an update adds to the latency count. -/
def latencyWeight : MetricUpdate → ℕ
  | .requestLatency _ labels =>
    if labelsKey labels = labelsKey (pathLabels method path) then 1 else 0
  | _ => 0

/-- What an update adds to the counted errors. -/
def errorsWeight : MetricUpdate → ℚ
  | .errorsTotal labels => if labelsKey labels = labelsKey (pathLabels method path) then 1 else 0
  | _ => 0

theorem requestsOver_update (P : String → Bool) (r : MetricsRegistry ℚ) (u : MetricUpdate) :
    requestsOver (r.update u) method path P =
      requestsOver r method path P + requestsWeight method path P u := by
  cases u with
  | requestsTotal labels =>
    rw [requestsOver, MetricsRegistry.update, Counter.inc, Dict.total_add]
    simp only [get_labelsKey]
    rfl
  | requestLatency duration labels => exact (add_zero _).symm
  | errorsTotal labels => exact (add_zero _).symm

theorem latencyCount_update (r : MetricsRegistry ℚ) (u : MetricUpdate) :
    latencyCount (r.update u) method path =
      latencyCount r method path + latencyWeight method path u := by
  cases u with
  | requestsTotal labels => rfl
  | requestLatency duration labels =>
    rw [latencyCount, MetricsRegistry.update, Histogram.observe, Dict.value_add]
    rfl
  | errorsTotal labels => rfl

theorem errorsCount_update (r : MetricsRegistry ℚ) (u : MetricUpdate) :
    errorsCount (r.update u) method path =
      errorsCount r method path + errorsWeight method path u := by
  cases u with
  | requestsTotal labels => exact (add_zero _).symm
  | requestLatency duration labels => exact (add_zero _).symm
  | errorsTotal labels =>
    rw [errorsCount, MetricsRegistry.update, Counter.inc, Dict.value_add]
    rfl

end

/-! ## All requests -/

/-- A request and what its handling has come to. -/
abbrev MiddlewareThread := Service.Thread HttpCall MiddlewareOp MiddlewareOp.Ret AppEnd

/-- All requests, and the registry. -/
abbrev MiddlewareState :=
  Service.State HttpCall MiddlewareOp MiddlewareOp.Ret AppEnd (MetricsRegistry ℚ)

/-- An HTTP request with a method and a path: the template of its route, or else its own path. -/
def MiddlewareThread.isFor (method path : String) (th : MiddlewareThread) : Bool :=
  decide (th.request.scope.type = "http") && decide (th.request.scope.methodOf = method) &&
    decide (routeLabel th.request.scope (lastOf routed th.events) = path)

/-- The status a request is counted with: the last one a response was begun with, or 500 if none
was. -/
def MiddlewareThread.status (th : MiddlewareThread) : ℕ := (lastOf startedStatus th.events).getD 500

/-- What an event weighs, by the update it makes. -/
def eventWeight {M : Type} [Zero M] (w : MetricUpdate → M) (e : MiddlewareEvent) : M :=
  ((updated e).map w).getD 0

theorem sum_eventWeight {M : Type} [AddCommMonoid M] (w : MetricUpdate → M)
    (es : List MiddlewareEvent) :
    (es.map (eventWeight w)).sum = ((es.filterMap updated).map w).sum := by
  induction es with
  | nil => rfl
  | cons e es ih =>
    rw [List.map_cons, List.sum_cons, ih, List.filterMap_cons, eventWeight]
    cases updated e with
    | none => exact zero_add _
    | some u => rfl

theorem sum_indicator {γ M : Type} [AddCommMonoidWithOne M] (q : γ → Bool) (l : List γ) :
    (l.map fun x => if q x then (1 : M) else 0).sum = (l.countP q : M) := by
  induction l with
  | nil => simp
  | cons x l ih =>
    rw [List.map_cons, List.sum_cons, ih, List.countP_cons]
    by_cases h : q x
    · simp [h, add_comm]
    · simp [h]

theorem sum_callUpdates {M : Type} [AddCommMonoid M] (w : MetricUpdate → M)
    (method path : String) (status : ℕ) (duration : ℚ) :
    ((callUpdates method path status duration).map w).sum =
      w (.requestsTotal (statusLabels method path status)) +
        (w (.requestLatency duration (pathLabels method path)) +
          if 500 ≤ status then w (.errorsTotal (pathLabels method path)) else 0) := by
  unfold callUpdates
  by_cases h : 500 ≤ status
  · simp [h]
  · simp [h]

/-- **Counting.**  A measure of the registry that adds up over updates counts, when no request is in
progress, the requests of the kind whose updates weigh one. -/
theorem measure_quiet {M : Type} [AddCommMonoidWithOne M] {μ : MetricsRegistry ℚ → M}
    {w : MetricUpdate → M} {q : MiddlewareThread → Bool}
    (hmeasure : ∀ r u, μ (r.update u) = μ r + w u) (hnew : μ .new = 0)
    (hhttp : ∀ th : MiddlewareThread, th.request.scope.type = "http" → ∀ duration,
      ((callUpdates th.request.scope.methodOf
        (routeLabel th.request.scope (lastOf routed th.events)) (MiddlewareThread.status th)
        duration).map w).sum = if q th then 1 else 0)
    (hother : ∀ th : MiddlewareThread, th.request.scope.type ≠ "http" → q th = false)
    {ls : List (Service.Label HttpCall MiddlewareEnv)} {t : MiddlewareState}
    (h : Run middlewareService.step (.initial .new) ls t) (hquiet : t.Quiet) :
    μ t.store = (t.threads.countP q : M) := by
  have hexec : ∀ env s o s' r, middlewareService.exec env s o = some (s', r) →
      μ s' = μ s + eventWeight w ⟨o, r⟩ := by
    intro env s o s' r hexec
    cases o with
    | update u =>
      cases hexec
      exact hmeasure s u
    | startSpan _ | setContext _ | resetContext _ | perfCounter | send _ | setRoute _ | ambient
      | log _ =>
      cases hexec
      exact (add_zero _).symm
  rw [Service.accounted_sum hexec h, hnew, zero_add, ← sum_indicator]
  congr 1
  apply List.map_congr_left
  intro th hth
  obtain ⟨answer, hanswer⟩ := hquiet th hth
  rw [sum_eventWeight]
  have htrace : (ObservabilityMiddleware.call th.request).Trace th.events answer := by
    have hran := Service.run_ran h (fun _ hmem => absurd hmem List.not_mem_nil) th hth
    rw [Service.Thread.Ran, show th.rest = .done answer from hanswer] at hran
    exact hran
  by_cases htype : th.request.scope.type = "http"
  · obtain ⟨duration, hupdates⟩ := ensures_iff.mp (call_counts th.request htype) _ _ htrace
    rw [hupdates]
    exact hhttp th htype duration
  · rw [ensures_iff.mp (call_plain th.request htype) _ _ htrace, hother th htype]
    rfl

section
variable {ls : List (Service.Label HttpCall MiddlewareEnv)} {t : MiddlewareState}
  (method path : String)

/-- The counted requests over some statuses are the requests with such a status. -/
theorem requestsOver_quiet (P : String → Bool)
    (h : Run middlewareService.step (.initial .new) ls t) (hquiet : t.Quiet) :
    requestsOver t.store method path P =
      (t.threads.countP fun th => MiddlewareThread.isFor method path th &&
        P (statusText (MiddlewareThread.status th)) : ℕ) := by
  refine measure_quiet (μ := fun r => requestsOver r method path P)
    (requestsOver_update method path P) rfl ?_ ?_ h hquiet
  · intro th htype duration
    obtain ⟨hm, hp, hs⟩ := get_statusLabels th.request.scope.methodOf
      (routeLabel th.request.scope (lastOf routed th.events)) (MiddlewareThread.status th)
    rw [sum_callUpdates]
    simp [requestsWeight, hm, hp, hs, MiddlewareThread.isFor, htype]
  · intro th htype
    simp [MiddlewareThread.isFor, htype]

/-- The latency histogram has counted the requests. -/
theorem latencyCount_quiet (h : Run middlewareService.step (.initial .new) ls t)
    (hquiet : t.Quiet) :
    latencyCount t.store method path = t.threads.countP (MiddlewareThread.isFor method path) := by
  refine measure_quiet (μ := fun r => latencyCount r method path)
    (latencyCount_update method path) rfl ?_ ?_ h hquiet
  · intro th htype duration
    rw [sum_callUpdates]
    simp [latencyWeight, labelsKey_pathLabels_inj, MiddlewareThread.isFor, htype]
  · intro th htype
    simp [MiddlewareThread.isFor, htype]

/-- The counted errors are the requests with an error status. -/
theorem errorsCount_quiet (h : Run middlewareService.step (.initial .new) ls t)
    (hquiet : t.Quiet) :
    errorsCount t.store method path =
      (t.threads.countP fun th => MiddlewareThread.isFor method path th &&
        decide (500 ≤ MiddlewareThread.status th) : ℕ) := by
  refine measure_quiet (μ := fun r => errorsCount r method path)
    (errorsCount_update method path) rfl ?_ ?_ h hquiet
  · intro th htype duration
    rw [sum_callUpdates]
    by_cases herror : 500 ≤ MiddlewareThread.status th
    · simp [errorsWeight, labelsKey_pathLabels_inj, MiddlewareThread.isFor, htype, herror]
    · simp [errorsWeight, MiddlewareThread.isFor, htype, herror]
  · intro th htype
    simp [MiddlewareThread.isFor, htype]

end

/-- **The metrics agree.**  In every run of any requests, interleaved in any way, whenever no
request is in progress, for every method and path: the counted requests over all statuses are the
latency histogram's count, which is the number of such requests; the counted errors are the counted
requests over the statuses from 500 on; and each request is counted with the last status it began a
response with, and with 500 if it raised before it began one. -/
theorem metrics_agree {ls : List (Service.Label HttpCall MiddlewareEnv)} {t : MiddlewareState}
    (h : Run middlewareService.step (.initial .new) ls t) (hquiet : t.Quiet)
    (method path : String) :
    requestsOver t.store method path (fun _ => true) = latencyCount t.store method path ∧
      latencyCount t.store method path = t.threads.countP (MiddlewareThread.isFor method path) ∧
      errorsCount t.store method path = requestsOver t.store method path isErrorText ∧
      (∀ status, requestsOver t.store method path (fun s => s = statusText status) =
        (t.threads.countP fun th => MiddlewareThread.isFor method path th &&
          decide (MiddlewareThread.status th = status) : ℕ)) ∧
      ∀ th ∈ t.threads, th.Answered .raised → (∀ e ∈ th.events, startedStatus e = none) →
        MiddlewareThread.status th = 500 := by
  refine ⟨?_, latencyCount_quiet method path h hquiet, ?_, ?_, ?_⟩
  · rw [requestsOver_quiet method path _ h hquiet, latencyCount_quiet method path h hquiet]
    simp
  · rw [errorsCount_quiet method path h hquiet, requestsOver_quiet method path _ h hquiet]
    simp only [isErrorText_statusText]
  · intro status
    rw [requestsOver_quiet method path _ h hquiet]
    simp only [statusText_inj]
  · intro th _ _ hnone
    rw [MiddlewareThread.status, lastOf, List.filterMap_eq_nil_iff.mpr hnone]
    rfl

/-- An application that answers with a status. -/
def answering (status : ℕ) : App :=
  .act (.send (.responseStart status none)) fun _ =>
    .act (.send (.other "http.response.body" [])) fun _ => .done .returned

/-- An application that raises before it responds. -/
def failing : App := .act .ambient fun _ => .done .raised

/-- A `GET` request without headers. -/
def sampleCall (path : String) (app : App) : HttpCall :=
  ⟨⟨"http", some "GET", some path, []⟩, app⟩

/-- Surroundings in which nothing fails. -/
def middlewareEnv : MiddlewareEnv :=
  ⟨⟨Vector.replicate 16 0xab, Vector.replicate 8 0xab⟩, none, 0, .sent, 0⟩

/-- Two requests at a time; the first fails. -/
def twoRequests : List (Service.Label HttpCall MiddlewareEnv) :=
  [.arrive (sampleCall "/boom" failing), .arrive (sampleCall "/ok" (answering 200))] ++
    (List.replicate 10 [.act 0 middlewareEnv, .act 1 middlewareEnv]).flatten

theorem metrics_agree_failure : ∃ t : MiddlewareState,
    Run middlewareService.step (.initial .new) twoRequests t ∧
      requestsOver t.store "GET" "/boom" (fun _ => true) = 1 ∧
      errorsCount t.store "GET" "/boom" = requestsOver t.store "GET" "/boom" isErrorText := by
  obtain ⟨t, hrun, hend⟩ := Option.map_eq_some_iff.mp
    (show (twoRequests.foldlM middlewareService.step (.initial .new)).map
      (fun t => (decide t.Quiet, latencyCount t.store "GET" "/boom")) = some (true, 1) by
        decide +kernel)
  obtain ⟨hquiet, hlatency⟩ := Prod.mk.inj hend
  obtain ⟨hrequests, -, herrors, -⟩ :=
    metrics_agree hrun (of_decide_eq_true hquiet) "GET" "/boom"
  refine ⟨t, hrun, ?_, herrors⟩
  rw [hrequests, hlatency]
  rfl

end EventLedger
