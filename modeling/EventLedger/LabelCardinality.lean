import EventLedger.RequestMetrics

/-!
# How many label sets there are

The middleware labels its metrics with the template of the matched route, so that there
are only as many label sets as registered routes and methods (`label_pairs_bounded`).
That holds of matched requests.  Where no route is set, the label is the path of the
request, and nothing bounds the label sets (`label_pairs_unbounded`).

A label set is never given up again, so the bound is one for the whole life of a
registry, not for what is in progress.
-/
namespace EventLedger

open Program Prog LabelledRun OrderedDict

/-! ## Label pairs -/

/-- The method and the path among some labels. -/
def pairOf (labels : Labels) : Option (String × String) := do
  let method ← labels.get methodLabel
  let path ← labels.get pathLabel
  return (method, path)

/-- The method and path labels present in the registry. -/
def MetricsRegistry.labelPairs (r : MetricsRegistry ℚ) : List (String × String) :=
  r.keys.filterMap fun key => pairOf key.labels

/-- The labels of an update. -/
def MetricUpdate.labels : MetricUpdate → Labels
  | requestsTotal labels => labels
  | requestLatency _ labels => labels
  | errorsTotal labels => labels

theorem pairOf_labelsKey (labels : Labels) : pairOf (labelsKey labels).labels = pairOf labels := by
  rw [pairOf, get_labelsKey, get_labelsKey]
  rfl

/-- An update adds its own label set, and no other. -/
theorem mem_keys_update {r : MetricsRegistry ℚ} {u : MetricUpdate} {key : LabelKey} :
    key ∈ (r.update u).keys ↔ key = labelsKey u.labels ∨ key ∈ r.keys := by
  unfold MetricsRegistry.keys
  simp only [List.mem_append]
  cases u with
  | requestsTotal labels =>
    show (key ∈ (r.requestsTotal.values.add _ _).keys ∨ _) ∨ _ ↔ _
    rw [Dict.mem_keys_add, or_assoc, or_assoc, or_assoc]
    rfl
  | requestLatency duration labels =>
    show _ ∨ key ∈ (r.requestLatency.counts.set _ _).keys ↔ _
    rw [Dict.mem_keys_set, or_left_comm]
    rfl
  | errorsTotal labels =>
    show (_ ∨ key ∈ (r.errorsTotal.values.add _ _).keys) ∨ _ ↔ _
    rw [Dict.mem_keys_add, or_left_comm, or_assoc, or_assoc, or_assoc]
    rfl

/-! ## The route of a call -/

/-- An event of the application. -/
abbrev AppEvent := Event AppOp AppOp.Ret

/-- The route the application has set. -/
def appRouted : AppEvent → Option Route
  | ⟨.setRoute route, _⟩ => some route
  | _ => none

/-- The call sees the route that the application has set last. -/
theorem runApp_routed {Post : AppEnd → List AppEvent → Prop} (ctx : TraceContext) {app : App}
    (h : app.Ensures Post) (state : CallState) :
    (runApp ctx app state).Ensures fun result es =>
      ∃ es', Post result.2 es' ∧ lastOf routed es = lastOf appRouted es' := by
  induction app generalizing state Post with
  | done result => exact ensures_done.mpr ⟨[], ensures_done.mp h, rfl⟩
  | act o k ih =>
    rw [ensures_act] at h
    cases o with
    | send message =>
      rw [runApp]
      refine (sendWrapper_ensures ctx state message).bind ?_
      rintro ⟨state', r⟩ es ⟨-, -, hrouted, -⟩
      refine (ih r (h r) state').mono ?_
      rintro result es' ⟨es₁, hpost, hlast⟩
      refine ⟨_, hpost, ?_⟩
      rw [lastOf_append, hrouted, hlast, lastOf_cons]
      rfl
    | setRoute route =>
      refine ensures_act.mpr fun r => (ih () (h ()) { state with route := some route }).mono ?_
      rintro result es ⟨es₁, hpost, hlast⟩
      refine ⟨_, hpost, ?_⟩
      rw [lastOf_cons, hlast, lastOf_cons]
      rfl
    | ambient =>
      refine ensures_act.mpr fun r => (ih r (h r) state).mono ?_
      rintro result es ⟨es₁, hpost, hlast⟩
      refine ⟨_, hpost, ?_⟩
      rw [lastOf_cons, hlast, lastOf_cons]
      rfl

/-- So does the whole call. -/
theorem call_routed {Post : AppEnd → List AppEvent → Prop} (c : HttpCall)
    (hhttp : c.scope.type = "http") (h : c.app.Ensures Post) :
    (ObservabilityMiddleware.call c).Ensures fun result es =>
      ∃ es', Post result es' ∧ lastOf routed es = lastOf appRouted es' := by
  rw [ObservabilityMiddleware.call, if_neg (not_not_intro hhttp)]
  refine ensures_act.mpr fun ctx => ensures_act.mpr fun token => ensures_act.mpr fun start => ?_
  refine (runApp_routed ctx h ⟨500, none⟩).bind ?_
  rintro ⟨state, result⟩ es ⟨es', hpost, hlast⟩
  refine (finish_ensures c.scope start token state).bind ?_
  rintro _ es₁ ⟨-, hrouted, -⟩
  refine ensures_done.mpr ⟨es', hpost, ?_⟩
  show lastOf routed (es ++ (es₁ ++ [])) = _
  rw [List.append_nil, lastOf_append, hrouted, Option.none_or, hlast]

/-- While the application runs, the metrics are left alone. -/
theorem runApp_all (ctx : TraceContext) (app : App) (state : CallState) :
    (runApp ctx app state).All fun o => ∀ u, o ≠ .update u := by
  induction app generalizing state with
  | done result => trivial
  | act o k ih =>
    cases o with
    | send message =>
      rw [runApp]
      refine All.bind ?_ fun result => ih result.2 result.1
      cases message with
      | responseStart status headers => exact ⟨fun u h => (by cases h), fun _ => trivial⟩
      | other type body => exact ⟨fun u h => (by cases h), fun _ => trivial⟩
    | setRoute route => exact ⟨fun u h => (by cases h), fun _ => ih () _⟩
    | ambient => exact ⟨fun u h => (by cases h), fun r => ih r _⟩

/-- The `finally` block labels every update with the method and the path of the call. -/
theorem finish_all (scope : Scope) (start : ℚ) (token : Token) (state : CallState) :
    (finish scope start token state).All fun o => ∀ u, o = .update u →
      pairOf u.labels = some (scope.methodOf, routeLabel scope state.route) := by
  unfold finish
  refine ⟨fun u h => (by cases h), fun now => ⟨?_, fun _ => ⟨?_, fun _ => ?_⟩⟩⟩
  · intro u h
    cases h
    rfl
  · intro u h
    cases h
    rfl
  · by_cases h : 500 ≤ state.status
    · simp only [if_pos h]
      refine ⟨?_, fun _ => ⟨fun u h => (by cases h), fun _ => ⟨fun u h => (by cases h), ?_⟩⟩⟩
      · intro u h
        cases h
        rfl
      · exact fun _ => trivial
    · simp only [if_neg h]
      exact ⟨fun u h => (by cases h), fun _ => ⟨fun u h => (by cases h), fun _ => trivial⟩⟩

/-! ## Matched requests -/

/-- The method and path pairs the routes are registered for. -/
def registeredPairs (routes : List Route) : List (String × String) :=
  routes.flatMap fun route => route.methods.map fun method => (method, route.path.getD "")

/-- The router matches the request: it sets one of the routes, which has a template and is
registered for the method. -/
def Matched (routes : List Route) (c : HttpCall) : Prop :=
  c.app.Ensures fun _ es => ∃ route ∈ routes, lastOf appRouted es = some route ∧
    (∃ template, route.path = some template ∧ template ≠ "") ∧ c.scope.methodOf ∈ route.methods

/-- The labels of a matched request are those of its route. -/
theorem routeLabel_mem {routes : List Route} {route : Route} {scope : Scope}
    (hroute : route ∈ routes) (htemplate : ∃ template, route.path = some template ∧ template ≠ "")
    (hmethod : scope.methodOf ∈ route.methods) :
    (scope.methodOf, routeLabel scope (some route)) ∈ registeredPairs routes := by
  obtain ⟨template, hpath, hne⟩ := htemplate
  have hlabel : routeLabel scope (some route) = template := by
    rw [routeLabel, Option.bind_some, hpath]
    exact if_neg hne
  rw [hlabel]
  refine List.mem_flatMap.mpr ⟨route, hroute, List.mem_map.mpr ⟨scope.methodOf, hmethod, ?_⟩⟩
  rw [hpath]
  rfl

/-- The events only label updates with pairs of a set. -/
def LabelsWithin (pairs : List (String × String)) (es : List MiddlewareEvent) : Prop :=
  ∀ e ∈ es, ∀ u, updated e = some u → ∀ pair, pairOf u.labels = some pair → pair ∈ pairs

theorem LabelsWithin.append {pairs : List (String × String)} {es es' : List MiddlewareEvent}
    (h : LabelsWithin pairs es) (h' : LabelsWithin pairs es') : LabelsWithin pairs (es ++ es') := by
  intro e he
  rcases List.mem_append.mp he with he | he
  · exact h e he
  · exact h' e he

/-- Events that update nothing label nothing. -/
theorem labelsWithin_of_quiet {pairs : List (String × String)} {es : List MiddlewareEvent}
    (h : ∀ e ∈ es, ∀ u, e.1 ≠ .update u) : LabelsWithin pairs es :=
  fun e he u hu => absurd (updated_eq_some hu) (h e he u)

/-- An operation that updates nothing may stand in front. -/
theorem keeps_act_quiet {pairs : List (String × String)} {α : Type} {o : MiddlewareOp}
    {k : o.Ret → MiddlewareProg α} (ho : ∀ u, o ≠ .update u)
    (h : ∀ r, (k r).Keeps (LabelsWithin pairs) fun _ _ => True) :
    (Prog.act o k).Keeps (LabelsWithin pairs) fun _ _ => True := by
  refine keeps_act.mpr ⟨labelsWithin_of_quiet fun _ h => absurd h List.not_mem_nil, fun r => ?_⟩
  refine (h r).mono (fun es hes => ?_) fun _ _ _ _ => trivial
  have hfirst : LabelsWithin pairs [⟨o, r⟩] := by
    apply labelsWithin_of_quiet
    intro e he
    rw [List.mem_singleton.mp he]
    exact ho
  exact hfirst.append hes

/-- When the application is done, the call's route labels it with a registered pair. -/
theorem runApp_matched {routes : List Route} {c : HttpCall} (hmatched : Matched routes c)
    (ctx : TraceContext) :
    (runApp ctx c.app ⟨500, none⟩).Keeps (LabelsWithin (registeredPairs routes))
      fun result _ =>
        (c.scope.methodOf, routeLabel c.scope result.1.route) ∈ registeredPairs routes := by
  intro es q hsteps
  refine ⟨labelsWithin_of_quiet ((runApp_all ctx c.app _).keeps es q hsteps).1, ?_⟩
  rintro ⟨state, result⟩ rfl
  obtain ⟨-, hroute, -⟩ := (runApp_ensures ctx c.app _ es _ hsteps).2 (state, result) rfl
  obtain ⟨es', ⟨route, hmem, hlast, htemplate, hmethod⟩, hrouted⟩ :=
    (runApp_routed ctx hmatched _ es _ hsteps).2 (state, result) rfl
  have hset : state.route = some route := by
    rw [Option.or_none, hrouted, hlast] at hroute
    exact hroute
  rw [hset]
  exact routeLabel_mem hmem htemplate hmethod

/-- **One call.**  A call whose request is matched labels its updates with a registered pair. -/
theorem call_labels {routes : List Route} (c : HttpCall)
    (hmatched : c.scope.type = "http" → Matched routes c) :
    (ObservabilityMiddleware.call c).Keeps (LabelsWithin (registeredPairs routes))
      fun _ _ => True := by
  by_cases htype : c.scope.type = "http"
  · rw [ObservabilityMiddleware.call, if_neg (not_not_intro htype)]
    refine keeps_act_quiet (fun u h => (by cases h)) fun ctx =>
      keeps_act_quiet (fun u h => (by cases h)) fun token =>
        keeps_act_quiet (fun u h => (by cases h)) fun start => ?_
    refine (runApp_matched (hmatched htype) ctx).bind ?_
    rintro ⟨state, result⟩ es hes hpair
    refine ((finish_all c.scope start token state).bind
      (f := fun _ => pure result) fun _ => trivial).keeps.mono ?_ fun _ _ _ _ => trivial
    intro es' hes'
    refine hes.append ?_
    intro e he u hu pair hpair'
    have hlabels := hes' e he u (updated_eq_some hu)
    rw [hlabels] at hpair'
    cases hpair'
    exact hpair
  · rw [ObservabilityMiddleware.call, if_pos htype]
    exact (plain_all c.app).keeps.mono (fun es hes => labelsWithin_of_quiet hes)
      fun _ _ _ _ => trivial

/-! ## All requests -/

section
variable {ls : List (Service.Label HttpCall MiddlewareEnv)} {t : MiddlewareState}

/-- Every label set in the registry was put there by an update of some request. -/
theorem key_of_update (h : Run middlewareService.step (.initial .new) ls t) :
    ∀ key ∈ t.store.keys, ∃ th ∈ t.threads, ∃ e ∈ th.events, ∃ u, updated e = some u ∧
      key = labelsKey u.labels := by
  refine Run.preserves (I := fun s : MiddlewareState => ∀ key ∈ s.store.keys, ∃ th ∈ s.threads,
    ∃ e ∈ th.events, ∃ u, updated e = some u ∧ key = labelsKey u.labels) ?_ h ?_
  · intro s a t hs hstep
    cases Service.step_cases hstep with
    | arrive req =>
      intro key hkey
      obtain ⟨th, hth, hevent⟩ := hs key hkey
      exact ⟨th, List.mem_append_left _ hth, hevent⟩
    | act i env req es o k store r hthread hexec =>
      have hnew : (⟨req, es ++ [⟨o, r⟩], k r⟩ : MiddlewareThread) ∈
          s.threads.set i ⟨req, es ++ [⟨o, r⟩], k r⟩ :=
        List.mem_set (List.getElem?_eq_some_iff.mp hthread).1 _
      -- what was there before still has its event, in the thread that moved or in another
      have hold : ∀ key ∈ s.store.keys, ∃ th ∈ s.threads.set i ⟨req, es ++ [⟨o, r⟩], k r⟩,
          ∃ e ∈ th.events, ∃ u, updated e = some u ∧ key = labelsKey u.labels := by
        intro key hkey
        obtain ⟨th, hth, e, he, hu⟩ := hs key hkey
        obtain ⟨j, hj⟩ := List.mem_iff_getElem?.mp hth
        by_cases hij : i = j
        · subst hij
          cases hthread.symm.trans hj
          exact ⟨_, hnew, e, List.mem_append_left _ he, hu⟩
        · have hkeep : (s.threads.set i ⟨req, es ++ [⟨o, r⟩], k r⟩)[j]? = some th := by
            rw [List.getElem?_set_ne hij, hj]
          exact ⟨th, List.mem_of_getElem? hkeep, e, he, hu⟩
      cases o with
      | update u =>
        cases hexec
        intro key hkey
        rcases mem_keys_update.mp hkey with rfl | hkey
        · exact ⟨_, hnew, ⟨.update u, ()⟩, List.mem_append_right _ List.mem_cons_self, u, rfl, rfl⟩
        · exact hold key hkey
      | startSpan _ | setContext _ | resetContext _ | perfCounter | send _ | setRoute _ | ambient
        | log _ =>
        cases hexec
        exact hold
  · intro key hkey
    cases hkey

/-- **Bounded labels.**  In every run whose HTTP requests are all matched by the registered routes,
the method and path pairs in the registry are registered pairs, however many requests there are. -/
theorem label_pairs_bounded (routes : List Route)
    (h : Run middlewareService.step (.initial .new) ls t)
    (hmatched : ∀ c, .arrive c ∈ ls → c.scope.type = "http" → Matched routes c) :
    ∀ pair ∈ t.store.labelPairs, pair ∈ registeredPairs routes := by
  intro pair hpair
  obtain ⟨key, hkey, hpair⟩ := List.mem_filterMap.mp hpair
  obtain ⟨th, hth, e, he, u, hu, rfl⟩ := key_of_update h key hkey
  rw [pairOf_labelsKey] at hpair
  have hran := Service.run_ran h (fun _ hmem => absurd hmem List.not_mem_nil) th hth
  have harrived : .arrive th.request ∈ ls := by
    rcases Service.request_arrived h th hth with ⟨th', hmem, -⟩ | hmem
    · cases hmem
    · exact hmem
  exact (call_labels th.request (hmatched _ harrived) th.events th.rest hran).1 e he u hu pair hpair

end

/-- The route of the health check. -/
def healthRoute : Route := ⟨some "/health", ["GET"]⟩

/-- An application that matches the health check and answers. -/
def healthy : App := .act (.setRoute healthRoute) fun _ => answering 200

theorem label_pairs_bounded_health : ∃ t : MiddlewareState,
    Run middlewareService.step (.initial .new)
      (.arrive (sampleCall "/health" healthy) :: List.replicate 11 (.act 0 middlewareEnv)) t ∧
    t.store.labelPairs ≠ [] ∧
    ∀ pair ∈ t.store.labelPairs, pair ∈ registeredPairs [healthRoute] := by
  obtain ⟨t, hrun, hend⟩ := Option.map_eq_some_iff.mp
    (show ((Service.Label.arrive (sampleCall "/health" healthy) ::
        List.replicate 11 (.act 0 middlewareEnv)).foldlM middlewareService.step
          (.initial .new)).map (fun t => t.store.labelPairs) =
      some [("GET", "/health"), ("GET", "/health")] by decide +kernel)
  refine ⟨t, hrun, by rw [hend]; exact List.cons_ne_nil _ _, ?_⟩
  refine label_pairs_bounded [healthRoute] hrun ?_
  intro c hc _
  rcases List.mem_cons.mp hc with hfirst | hact
  · cases hfirst
    refine ensures_act.mpr fun _ => ensures_act.mpr fun _ => ensures_act.mpr fun _ =>
      ensures_done.mpr ⟨healthRoute, List.mem_cons_self, rfl, ⟨"/health", rfl, ?_⟩, ?_⟩
    · decide
    · decide
  · cases List.eq_of_mem_replicate hact

/-- An operation of the middleware can always be performed. -/
theorem middlewareExec_total (r : MetricsRegistry ℚ) (o : MiddlewareOp) :
    ∃ env r' x, middlewareService.exec env r o = some (r', x) := by
  cases o with
  | startSpan _ | setContext _ | resetContext _ | perfCounter | send _ | setRoute _ | ambient
    | update _ | log _ => exact ⟨middlewareEnv, _, _, rfl⟩

/-- What the latency histogram has counted is present in the registry. -/
theorem mem_labelPairs_of_latencyCount {r : MetricsRegistry ℚ} {method path : String}
    (h : latencyCount r method path ≠ 0) : (method, path) ∈ r.labelPairs := by
  have hkey : labelsKey (pathLabels method path) ∈ r.requestLatency.totals.keys := by
    by_contra hmem
    rw [latencyCount, Dict.value, Dict.get_eq_none.mpr hmem] at h
    exact h rfl
  rw [r.requestLatency.totals_keys] at hkey
  refine List.mem_filterMap.mpr ⟨_, List.mem_append_right _ hkey, ?_⟩
  rw [pairOf_labelsKey]
  rfl

/-- There is always a path that has not been seen. -/
theorem exists_new_path (paths : List String) : ∃ path, path ∉ paths := by
  refine ⟨String.ofList (List.replicate ((paths.map fun s => s.toList.length).sum + 1) '/'), ?_⟩
  intro hmem
  have hle := List.single_le_sum (fun _ _ => Nat.zero_le _) _
    (List.mem_map.mpr ⟨_, hmem, rfl⟩ : _ ∈ paths.map fun s => s.toList.length)
  rw [String.toList_ofList, List.length_replicate] at hle
  omega

/-- Whatever the registered routes are, no finite set of pairs bounds the labels: a request for a
path that no route matches is labelled with its path. -/
theorem exists_new_pair (routes : List Route) (pairs : List (String × String)) :
    ∃ (ls : List (Service.Label HttpCall MiddlewareEnv)) (t : MiddlewareState),
      Run middlewareService.step (.initial .new) ls t ∧
      (∀ th ∈ t.threads, th.request.app.All fun o => ∀ route, o = .setRoute route →
        route ∈ routes) ∧
      ∃ pair ∈ t.store.labelPairs, pair ∉ pairs := by
  obtain ⟨path, hpath⟩ := exists_new_path (pairs.map Prod.snd)
  obtain ⟨ls, t, hrun, -, th, answer, hthreads, hrequest, hanswered⟩ :=
    Service.exists_completed (V := middlewareService) middlewareExec_total
      (sampleCall path (answering 404)) .new
  refine ⟨_, t, hrun, ?_, ("GET", path), ?_, ?_⟩
  · intro th' hth'
    rw [hthreads, List.mem_singleton] at hth'
    rw [hth', hrequest]
    exact ⟨fun route h => (by cases h), fun _ => ⟨fun route h => (by cases h), fun _ => trivial⟩⟩
  · -- the request has been counted under its own path
    have hanswering : (answering 404).Ensures fun _ es => lastOf appRouted es = none :=
      ensures_act.mpr fun _ => ensures_act.mpr fun _ => ensures_done.mpr rfl
    have hran := Service.run_ran hrun (fun _ hmem => absurd hmem List.not_mem_nil) th
      (by rw [hthreads]; exact List.mem_cons_self)
    rw [Service.Thread.Ran, show th.rest = .done answer from hanswered, hrequest] at hran
    obtain ⟨es', hnone, hrouted⟩ := ensures_iff.mp
      (call_routed (sampleCall path (answering 404)) rfl hanswering) _ _ hran
    have hfor : MiddlewareThread.isFor "GET" path th = true := by
      rw [MiddlewareThread.isFor, hrequest, hrouted, hnone]
      simp [sampleCall, Scope.methodOf, routeLabel]
    have hquiet : t.Quiet := by
      intro th' hth'
      rw [hthreads, List.mem_singleton] at hth'
      rw [hth']
      exact ⟨answer, hanswered⟩
    have hcount := latencyCount_quiet "GET" path hrun hquiet
    rw [hthreads, List.countP_singleton, if_pos hfor] at hcount
    exact mem_labelPairs_of_latencyCount (by rw [hcount]; exact Nat.one_ne_zero)
  · intro hmem
    exact hpath (List.mem_map.mpr ⟨_, hmem, rfl⟩)

/-- **Unbounded labels.**  The registered routes do not determine a finite set that the label pairs
stay within, even if no application sets any other route. -/
theorem label_pairs_unbounded : ¬ ∃ bound : List Route → List (String × String),
    ∀ (routes : List Route) (ls : List (Service.Label HttpCall MiddlewareEnv))
      (t : MiddlewareState), Run middlewareService.step (.initial .new) ls t →
      (∀ th ∈ t.threads, th.request.app.All fun o => ∀ route, o = .setRoute route →
        route ∈ routes) →
      ∀ pair ∈ t.store.labelPairs, pair ∈ bound routes := by
  rintro ⟨bound, hbound⟩
  obtain ⟨ls, t, hrun, happs, pair, hpair, hnew⟩ := exists_new_pair [healthRoute]
    (bound [healthRoute])
  exact hnew (hbound [healthRoute] ls t hrun happs pair hpair)

end EventLedger
