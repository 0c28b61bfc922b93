import EventLedger.DownstreamErrors
import EventLedger.HandlerOperations

/-!
# What one request sends downstream

A handler makes one call of the Account Service at most.  The call asks the breaker
once; if it is admitted, it sends at most `max_retries + 1` requests and then
reports to the breaker once, or not at all when an exception ends it.  This is the
path of a small machine (`CallStage`), whose stage says how many requests the call
may still send.
-/
namespace EventLedger

open Program Prog LabelledRun

/-! ## Stages of a call -/

/-- What the breaker and the network see of a handler. -/
inductive WireEvent where
  | allowed (ok : Bool)
  | sent
  | reported (ok : Bool)
  deriving DecidableEq

/-- Where a handler is with its call. -/
inductive CallStage where
  /-- It has not asked the breaker. -/
  | idle
  /-- It is admitted and has not reported; so many requests it may still send. -/
  | calling (left : ℕ)
  /-- It was refused or has reported. -/
  | ended
  deriving DecidableEq

/-- The next stage, for calls of at most `n` requests. -/
def CallStage.next (n : ℕ) : CallStage → WireEvent → Option CallStage
  | .idle, .allowed true => some (.calling n)
  | .idle, .allowed false => some .ended
  | .calling (left + 1), .sent => some (.calling left)
  | .calling _, .reported _ => some .ended
  | _, _ => none

/-- The requests the call may still send. -/
def CallStage.left : CallStage → ℕ
  | .calling left => left
  | _ => 0

/-- The call is in flight: admitted, and not reported. -/
def CallStage.InFlight (stage : CallStage) : Prop := ∃ left, stage = .calling left

instance (stage : CallStage) : Decidable stage.InFlight :=
  match stage with
  | .calling left => .isTrue ⟨left, rfl⟩
  | .idle => .isFalse fun ⟨_, h⟩ => by cases h
  | .ended => .isFalse fun ⟨_, h⟩ => by cases h

/-- **Stages.**  Every event but the permission finds the call in flight; the permission starts it
and the report ends it. -/
theorem CallStage.next_cases {n : ℕ} {stage stage' : CallStage} {w : WireEvent}
    (h : stage.next n w = some stage') :
    (w = .allowed true ∧ stage = .idle ∧ stage' = .calling n) ∨
    (w = .allowed false ∧ stage = .idle ∧ stage' = .ended) ∨
    (∃ left, w = .sent ∧ stage = .calling (left + 1) ∧ stage' = .calling left) ∨
    ∃ left ok, w = .reported ok ∧ stage = .calling left ∧ stage' = .ended := by
  cases stage with
  | idle =>
    cases w with
    | allowed ok =>
      cases ok with
      | true => exact Or.inl ⟨rfl, rfl, (Option.some.inj h).symm⟩
      | false => exact Or.inr (Or.inl ⟨rfl, rfl, (Option.some.inj h).symm⟩)
    | sent => cases h
    | reported ok => cases h
  | calling left =>
    cases w with
    | allowed ok => cases left <;> cases h
    | sent =>
      cases left with
      | zero => cases h
      | succ left => exact Or.inr (Or.inr (Or.inl ⟨left, rfl, rfl, (Option.some.inj h).symm⟩))
    | reported ok =>
      refine Or.inr (Or.inr (Or.inr ⟨left, ok, rfl, rfl, ?_⟩))
      cases left with
      | zero => exact (Option.some.inj h).symm
      | succ left => exact (Option.some.inj h).symm
  | ended => cases h

/-! ## The client -/

/-- A view of `submit_event`'s operations in which asking and reporting are what they are, and
nothing else but a request is seen. -/
structure Sees (w : Event GatewayOp GatewayOp.Ret → Option WireEvent) : Prop where
  allow : ∀ ok, w ⟨.allowRequest, ok⟩ = some (.allowed ok)
  success : ∀ r, w ⟨.recordSuccess, r⟩ = some (.reported true)
  failure : ∀ r, w ⟨.recordFailure, r⟩ = some (.reported false)
  fault : ∀ mode, w ⟨.fault, mode⟩ = none
  sleep : ∀ attempt r, w ⟨.sleepBackoff attempt, r⟩ = none

section
variable {w : Event GatewayOp GatewayOp.Ret → Option WireEvent} {req : GatewayProg Outcome}
  {maxRetries left m n : ℕ}

/-- The events lead from the stage to another one, which leaves the call in flight only if `P`. -/
def Goes (w : Event GatewayOp GatewayOp.Ret → Option WireEvent) (n : ℕ) (stage : CallStage)
    (es : List (Event GatewayOp GatewayOp.Ret)) (P : Prop) : Prop :=
  ∃ stage', Run (CallStage.next n) stage (es.filterMap w) stage' ∧ (stage'.InFlight → P)

theorem Goes.cons_none {e : Event GatewayOp GatewayOp.Ret} {stage : CallStage}
    {es : List (Event GatewayOp GatewayOp.Ret)} {P : Prop} (he : w e = none)
    (h : Goes w n stage es P) : Goes w n stage (e :: es) P := by
  unfold Goes
  rw [List.filterMap_cons_none he]
  exact h

theorem Goes.cons_some {e : Event GatewayOp GatewayOp.Ret} {a : WireEvent}
    {stage stage' : CallStage} {es : List (Event GatewayOp GatewayOp.Ret)} {P : Prop}
    (he : w e = some a) (hstep : stage.next n a = some stage') (h : Goes w n stage' es P) :
    Goes w n stage (e :: es) P := by
  obtain ⟨last, hrun, hP⟩ := h
  refine ⟨last, ?_, hP⟩
  rw [List.filterMap_cons_some he]
  exact run_cons.mpr ⟨stage', hstep, hrun⟩

theorem goes_ended {P : Prop} : Goes w n .ended [] P :=
  ⟨.ended, run_nil.mpr rfl, fun ⟨_, h⟩ => by cases h⟩

/-- An attempt sends one request at most. -/
theorem attemptOnce_sends (hw : Sees w)
    (hreq : req.Ensures fun _ es => es.filterMap w = [] ∨ es.filterMap w = [.sent]) :
    (attemptOnce req).Ensures fun _ es => es.filterMap w = [] ∨ es.filterMap w = [.sent] := by
  simp only [attemptOnce, GatewayProg.fault, perform_bind, pure_eq]
  refine ensures_act.mpr fun fault₁ => ?_
  simp only [List.filterMap_cons_none (hw.fault fault₁)]
  split
  · exact ensures_done.mpr (Or.inl rfl)
  · refine ensures_act.mpr fun fault₂ => ?_
    simp only [List.filterMap_cons_none (hw.fault fault₂)]
    split
    · exact ensures_done.mpr (Or.inl rfl)
    · exact hreq

/-- **The retry loop** sends one request for each iteration at most, and reports unless an exception
ends it.  By induction on the iterations left. -/
theorem retryLoop_goes (hw : Sees w)
    (hreq : req.Ensures fun _ es => es.filterMap w = [] ∨ es.filterMap w = [.sent])
    (hm : left ≤ m) :
    (retryLoop req maxRetries left).Ensures fun result es =>
      Goes w n (.calling m) es (result = .raised) := by
  have hreport : ∀ {o : GatewayOp} {r : o.Ret} {ok : Bool}, w ⟨o, r⟩ = some (.reported ok) →
      ∀ (m : ℕ) (P : Prop), Goes w n (.calling m) [⟨o, r⟩] P := by
    intro o r ok ho m P
    refine Goes.cons_some ho ?_ goes_ended
    cases m <;> rfl
  induction left generalizing m with
  | zero => exact ensures_act.mpr fun r => ensures_done.mpr (hreport (hw.failure r) m _)
  | succ left ih =>
    have hbackoff : ∀ m, left ≤ m → (backoffAndRetry maxRetries (maxRetries - left)
        (retryLoop req maxRetries left)).Ensures fun result es =>
          Goes w n (.calling m) es (result = .raised) := by
      intro m hm
      unfold backoffAndRetry
      split
      · split
        · -- an overflow leaves the call in flight, and it raises
          exact ensures_done.mpr ⟨.calling m, run_nil.mpr rfl, fun _ => rfl⟩
        · exact ensures_act.mpr fun r => (ih hm).mono fun _ es h => h.cons_none (hw.sleep _ r)
      · exact ih hm
    refine Ensures.bind (attemptOnce_sends hw hreq) fun o es hes => ?_
    -- what follows the attempt, from the stage it leaves
    have hthen : ∀ {p : GatewayProg CallResult},
        (∀ m, left ≤ m → p.Ensures fun result es =>
          Goes w n (.calling m) es (result = .raised)) →
        p.Ensures fun result es' => Goes w n (.calling m) (es ++ es') (result = .raised) := by
      intro p hp
      unfold Goes
      simp only [List.filterMap_append]
      rcases hes with hes | hes
      · rw [hes]
        exact hp m (by omega)
      · rw [hes]
        obtain ⟨m, rfl⟩ : ∃ k, m = k + 1 := ⟨m - 1, by omega⟩
        refine (hp m (by omega)).mono ?_
        rintro _ es' ⟨stage, hrun, hP⟩
        exact ⟨stage, run_cons.mpr ⟨.calling m, rfl, hrun⟩, hP⟩
    cases o with
    | raised => exact hthen fun m _ => ensures_done.mpr ⟨.calling m, run_nil.mpr rfl, fun _ => rfl⟩
    | transportError => exact hthen hbackoff
    | response resp =>
      by_cases hok : resp.status < 400
      · simp only [if_pos hok]
        exact hthen fun m _ => ensures_act.mpr fun r =>
          ensures_done.mpr (hreport (hw.success r) m _)
      · by_cases hclient : resp.status < 500
        · simp only [if_neg hok, if_pos hclient]
          exact hthen fun m _ => ensures_act.mpr fun r =>
            ensures_done.mpr (hreport (hw.success r) m _)
        · simp only [if_neg hok, if_neg hclient]
          exact hthen hbackoff

/-- **`_call`** goes through the stages. -/
theorem call_goes (hw : Sees w)
    (hreq : req.Ensures fun _ es => es.filterMap w = [] ∨ es.filterMap w = [.sent]) :
    (call req maxRetries).Ensures fun result es =>
      Goes w (maxRetries + 1) .idle es (result = .raised) := by
  refine ensures_act.mpr fun ok => ?_
  cases ok with
  | true =>
    exact (retryLoop_goes hw hreq le_rfl).mono fun _ es h => h.cons_some (hw.allow true) rfl
  | false => exact ensures_done.mpr (goes_ended.cons_some (hw.allow false) rfl)

end

/-! ## The handlers -/

/-- An operation of a handler as the breaker and the network see it. -/
def wireEvent : Event ApiOp ApiOp.Ret → Option WireEvent
  | ⟨.core .allowRequest, ok⟩ => some (.allowed ok)
  | ⟨.core .recordSuccess, _⟩ => some (.reported true)
  | ⟨.core .recordFailure, _⟩ => some (.reported false)
  | ⟨.core (.send _ _), attempt⟩ => attempt.map fun _ => .sent
  | ⟨.fetch _, _⟩ => some .sent
  | _ => none

/-- The stage a handler has come to. -/
def callStage (n : ℕ) (es : List (Event ApiOp ApiOp.Ret)) : Option CallStage :=
  (es.filterMap wireEvent).foldlM (CallStage.next n) .idle

/-- The events are those of one call at most. -/
def OneCall (n : ℕ) (es : List (Event ApiOp ApiOp.Ret)) : Prop :=
  ∃ stage, callStage n es = some stage

/-- They leave the call in flight only if `P`. -/
def EndsCall (n : ℕ) (es : List (Event ApiOp ApiOp.Ret)) (P : Prop) : Prop :=
  ∃ stage, callStage n es = some stage ∧ (stage.InFlight → P)

theorem OneCall.of_append {n : ℕ} {es es' : List (Event ApiOp ApiOp.Ret)}
    (h : OneCall n (es ++ es')) : OneCall n es := by
  obtain ⟨stage, hrun⟩ := h
  rw [callStage, List.filterMap_append] at hrun
  obtain ⟨mid, hmid, -⟩ := run_append.mp hrun
  exact ⟨mid, hmid⟩

/-- An operation that neither asks the breaker nor sends anything nor reports. -/
def ApiOp.OffWire (o : ApiOp) : Prop := ∀ r, wireEvent ⟨o, r⟩ = none

section
variable {α β : Type} {p : ApiProg α} {f : α → ApiProg β} {n maxRetries : ℕ}

theorem filterMap_offWire {es : List (Event ApiOp ApiOp.Ret)} (h : ∀ e ∈ es, e.1.OffWire) :
    es.filterMap wireEvent = [] :=
  List.filterMap_eq_nil_iff.mpr fun e he => h e he e.2

theorem EndsCall.append {es es' : List (Event ApiOp ApiOp.Ret)} {P Q : Prop}
    (h : EndsCall n es P) (hes' : ∀ e ∈ es', e.1.OffWire) (hPQ : P → Q) :
    EndsCall n (es ++ es') Q := by
  obtain ⟨stage, hstage, hP⟩ := h
  refine ⟨stage, ?_, hPQ ∘ hP⟩
  rw [callStage, List.filterMap_append, filterMap_offWire hes', List.append_nil]
  exact hstage

/-- Operations off the wire end no call. -/
theorem endsCall_offWire {es : List (Event ApiOp ApiOp.Ret)} {P : Prop}
    (hes : ∀ e ∈ es, e.1.OffWire) : EndsCall n es P := by
  refine ⟨.idle, ?_, fun ⟨_, h⟩ => by cases h⟩
  rw [callStage, filterMap_offWire hes]
  rfl

theorem ensures_offWire {P : α → Prop} (h : p.All ApiOp.OffWire) :
    p.Ensures fun a es => EndsCall n es (P a) :=
  h.ensures.mono fun _ _ hes => endsCall_offWire hes

/-- A call, and what its handler makes of the result off the wire. -/
theorem endsCall_bind {P : α → Prop} {Q : β → Prop}
    (hp : p.Ensures fun a es => EndsCall n es (P a)) (hf : ∀ a, (f a).All ApiOp.OffWire)
    (hQ : ∀ a, P a → (f a).Ensures fun b _ => Q b) :
    (p >>= f).Ensures fun b es => EndsCall n es (Q b) := by
  refine Ensures.bind hp fun a es hes => ?_
  by_cases hP : P a
  · exact ((hf a).ensures.and (hQ a hP)).mono fun b es' h => hes.append h.1 fun _ => h.2
  · exact (hf a).ensures.mono fun b es' hes' => hes.append hes' fun h => absurd h hP

theorem offWire_unhandledError : ApiProg.unhandledError.All ApiOp.OffWire :=
  ⟨fun _ => rfl, fun _ => trivial⟩

theorem offWire_render (status : ℕ) (body : Option Json) :
    (ApiProg.render status body).All ApiOp.OffWire := by
  cases body with
  | some value => trivial
  | none => exact offWire_unhandledError

theorem offWire_renderJson (status : ℕ) (value : Json) :
    (ApiProg.renderJson status value).All ApiOp.OffWire :=
  offWire_render status value.rendered

theorem unhandledError_status : ApiProg.unhandledError.Ensures fun reply _ => reply.status = 500 :=
  ensures_act.mpr fun _ => ensures_done.mpr rfl

/-! ### The client's calls -/

theorem sees_inApi : Sees fun e => wireEvent (inApi e) :=
  ⟨fun _ => rfl, fun _ => rfl, fun _ => rfl, fun _ => rfl, fun _ _ => rfl⟩

theorem Goes.endsCall {es : List (Event GatewayOp GatewayOp.Ret)} {P : Prop}
    (h : Goes (fun e => wireEvent (inApi e)) n .idle es P) : EndsCall n (es.map inApi) P := by
  obtain ⟨stage, hrun, hP⟩ := h
  refine ⟨stage, ?_, hP⟩
  rw [callStage, List.filterMap_map]
  exact hrun

/-- What the client does for a `POST`. -/
theorem clientApply_endsCall (accountId : String) (payload : TxPayload) :
    (clientApplyTransaction maxRetries accountId payload).Ensures fun result es =>
      EndsCall (maxRetries + 1) (es.map inApi) (result = .raised) := by
  have hreq : (request accountId payload).Ensures fun _ es =>
      es.filterMap (fun e => wireEvent (inApi e)) = [] ∨
        es.filterMap (fun e => wireEvent (inApi e)) = [.sent] := by
    refine ensures_act.mpr fun attempt => ?_
    cases attempt with
    | none => exact ensures_done.mpr (Or.inl rfl)
    | some attempt => exact ensures_act.mpr fun _ => ensures_done.mpr (Or.inr rfl)
  refine Ensures.bind (call_goes sees_inApi hreq) fun result es hes => ?_
  refine ensures_done.mpr ?_
  rw [List.append_nil]
  obtain ⟨stage, hstage, hflight⟩ := hes.endsCall
  refine ⟨stage, hstage, fun h => ?_⟩
  rw [hflight h]
  rfl

/-- In a `GET`, waiting for the response is what sends the request. -/
def fetchEvent : Event GatewayOp GatewayOp.Ret → Option WireEvent
  | ⟨.receive _, _⟩ => some .sent
  | e => wireEvent (inApi e)

theorem sees_fetch : Sees fetchEvent :=
  ⟨fun _ => rfl, fun _ => rfl, fun _ => rfl, fun _ => rfl, fun _ _ => rfl⟩

theorem getCall_endsCall (path : String) :
    (getCall maxRetries path).Ensures fun result es =>
      EndsCall (maxRetries + 1) es (result = .raised) := by
  have hreq : (GatewayProg.receive 0).Ensures fun _ es =>
      es.filterMap fetchEvent = [] ∨ es.filterMap fetchEvent = [.sent] :=
    ensures_act.mpr fun _ => ensures_done.mpr (Or.inr rfl)
  refine Keeps.interpret (R := fun es es' => es'.filterMap wireEvent = es.filterMap fetchEvent)
    (call_goes sees_fetch hreq) rfl ?_ ?_
  · intro op es es' hes _ _
    have hnext : ∀ e e', wireEvent e' = fetchEvent e →
        (es' ++ [e']).filterMap wireEvent = (es ++ [e]).filterMap fetchEvent := by
      intro e e' he
      rw [List.filterMap_append, List.filterMap_append, hes, List.filterMap_cons,
        List.filterMap_cons, he]
      rfl
    cases op with
    | receive attempt =>
      exact keeps_act.mpr ⟨trivial, fun o => keeps_done.mpr ⟨trivial, hnext _ _ rfl⟩⟩
    | _ => exact keeps_act.mpr ⟨trivial, fun r => keeps_done.mpr ⟨trivial, hnext _ _ rfl⟩⟩
  · rintro result es es' hes - ⟨stage, hrun, hP⟩
    refine ⟨trivial, stage, ?_, hP⟩
    rw [callStage, hes]
    exact hrun

/-- A call that raised stays one that raised. -/
theorem clientGet_endsCall (path : String) :
    (do return parsed (← getCall maxRetries path) : ApiProg CallResult).Ensures fun result es =>
      EndsCall (maxRetries + 1) es (result = .raised) := by
  refine endsCall_bind (getCall_endsCall path) (fun _ => trivial) ?_
  rintro _ rfl
  exact ensures_done.mpr rfl

theorem readHandler_endsCall {client : ApiProg CallResult}
    (h : client.Ensures fun result es => EndsCall n es (result = .raised)) :
    (readHandler client).Ensures fun reply es => EndsCall n es (reply.status = 500) := by
  refine endsCall_bind h (fun result => ?_) ?_
  · cases result with
    | response resp => exact offWire_render _ _
    | unavailable => exact offWire_renderJson _ _
    | clientError resp => exact offWire_render _ _
    | raised => exact offWire_unhandledError
  · rintro _ rfl
    exact unhandledError_status

end

/-! ### The endpoints -/

/-- An operation of `submit_event` outside its call. -/
def GatewayOp.OffCall (op : GatewayOp) : Prop := (ApiOp.core op).OffWire

section
variable {loads : String → Option Json} {body : EventRequest} {maxRetries n : ℕ}

theorem respond_offCall (status : ℕ) (event : StoredEvent) (duplicate : Bool) :
    (respond loads status event duplicate).All GatewayOp.OffCall := by
  unfold respond
  split
  · trivial
  · exact ⟨fun _ => rfl, fun _ => trivial⟩

theorem persistEvent_offCall (amount : String) :
    (persistEvent loads body amount).All GatewayOp.OffCall := by
  refine ⟨fun _ => rfl, fun now => ⟨fun _ => rfl, fun created => ?_⟩⟩
  cases created with
  | true => exact ⟨fun _ => rfl, fun _ => respond_offCall 201 _ false⟩
  | false =>
    refine ⟨fun _ => rfl, fun existing => ?_⟩
    cases existing with
    | some existing => exact respond_offCall 200 existing true
    | none => exact ⟨fun _ => rfl, fun _ => trivial⟩

theorem offWire_map_inApi {es : List (Event GatewayOp GatewayOp.Ret)}
    (h : ∀ e ∈ es, e.1.OffCall) : ∀ e ∈ es.map inApi, e.1.OffWire := by
  intro e he
  obtain ⟨e', he', rfl⟩ := List.mem_map.mp he
  exact h e' he'

/-- **`submit_event`** makes one call at most, and answers with an internal error if that raised. -/
theorem submitEvent_endsCall :
    (submitEvent loads maxRetries body).Ensures fun answer es =>
      EndsCall (maxRetries + 1) (es.map inApi) (answer.status = 500) := by
  simp only [submitEvent, GatewayProg.getEvent, perform_bind]
  refine ensures_act.mpr fun existing => ?_
  have hfirst : ∀ {p : GatewayProg Answer}, (p.Ensures fun answer es =>
      EndsCall (maxRetries + 1) (es.map inApi) (answer.status = 500)) → p.Ensures fun answer es =>
        EndsCall (maxRetries + 1)
          ((⟨.getEvent body.eventId, existing⟩ :: es : List (Event GatewayOp GatewayOp.Ret)).map
            inApi) (answer.status = 500) :=
    fun hp => hp.mono fun _ es hes => hes
  have hoff : ∀ {p : GatewayProg Answer}, p.All GatewayOp.OffCall → p.Ensures fun answer es =>
      EndsCall (maxRetries + 1) (es.map inApi) (answer.status = 500) :=
    fun hp => hp.ensures.mono fun _ _ hes => endsCall_offWire (offWire_map_inApi hes)
  cases existing with
  | some existing =>
    exact hfirst (hoff (p := do
      GatewayProg.audit "DUPLICATE" body.accountId body.eventId []
      respond loads 200 existing true) ⟨fun _ => rfl, fun _ => respond_offCall 200 existing true⟩)
  | none =>
    dsimp only
    cases amountStr body.amount with
    | none => exact hfirst (hoff (p := unhandled) ⟨fun _ => rfl, fun _ => trivial⟩)
    | some amount =>
      refine hfirst (Ensures.bind (clientApply_endsCall body.accountId (body.payload amount)) ?_)
      intro result es hes
      -- what follows the call is off the wire
      have hafter : ∀ {p : GatewayProg Answer}, result ≠ .raised → p.All GatewayOp.OffCall →
          p.Ensures fun answer es' =>
            EndsCall (maxRetries + 1) ((es ++ es').map inApi) (answer.status = 500) := by
        intro p hresult hp
        refine hp.ensures.mono fun _ es' hes' => ?_
        rw [List.map_append]
        exact hes.append (offWire_map_inApi hes') fun h => absurd h hresult
      cases result with
      | unavailable =>
        exact hafter (by simp) ⟨fun _ => rfl, fun _ => ⟨fun _ => rfl, fun _ => trivial⟩⟩
      | clientError resp =>
        refine hafter (by simp) ⟨fun _ => rfl, fun _ => ?_⟩
        split
        · trivial
        · exact ⟨fun _ => rfl, fun _ => trivial⟩
      | response resp => exact hafter (by simp) (persistEvent_offCall amount)
      | raised =>
        refine ensures_act.mpr fun traceId => ensures_done.mpr ?_
        rw [List.map_append]
        refine hes.append ?_ fun _ => rfl
        intro e he
        cases List.mem_singleton.mp he
        exact fun _ => rfl

end

theorem getFaultHandler_offWire : getFaultHandler.All ApiOp.OffWire :=
  ⟨fun _ => rfl, fun _ => ⟨fun _ => rfl, fun _ => offWire_renderJson _ _⟩⟩

/-- **Handlers.**  Whatever is requested, the handler makes one call at most; when it has answered
the call is over, or the answer is an internal error. -/
theorem handleApi_endsCall (cfg : GatewaySettings) (req : ApiRequest) :
    (handleApi cfg req).Ensures fun reply es =>
      EndsCall (cfg.maxRetries + 1) es (reply.status = 500) := by
  cases req with
  | submit body =>
    have hsubmit : (submitEvent cfg.loads cfg.maxRetries body).Ensures fun answer es =>
        EndsCall (cfg.maxRetries + 1) (es.map inApi) (answer.status = 500) := submitEvent_endsCall
    have hcore := ApiProg.inCore_ensures hsubmit
    refine endsCall_bind (P := fun answer : Answer => answer.status = 500) (hcore.mono ?_)
      (fun answer => offWire_render answer.status (answer.body cfg.serializes))
      fun answer hstatus => ?_
    · rintro answer _ ⟨es, rfl, hes⟩
      exact hes
    · refine render_ensures.mono ?_
      rintro reply es ⟨-, ⟨value, -, rfl⟩ | ⟨-, h500⟩⟩
      · exact hstatus
      · exact h500
  | getBalance accountId => exact readHandler_endsCall (clientGet_endsCall _)
  | getAccount accountId => exact readHandler_endsCall (clientGet_endsCall _)
  | invalid endpoint errors =>
    exact ensures_offWire ⟨fun _ => rfl, fun _ => offWire_renderJson _ _⟩
  | unparseable =>
    exact ensures_offWire (offWire_renderJson _ _ : unparseableHandler.All ApiOp.OffWire)
  | getEvent eventId =>
    refine ensures_offWire (All.bind ⟨fun _ => rfl, fun _ => trivial⟩ fun event => ?_)
    cases event with
    | none => exact offWire_renderJson _ _
    | some event =>
      dsimp only
      cases event.toResponse cfg.loads false with
      | some response => exact offWire_render _ _
      | none => exact offWire_unhandledError
  | listEvents account =>
    refine ensures_offWire (All.bind ⟨fun _ => rfl, fun _ => trivial⟩ fun events => ?_)
    split
    · exact offWire_renderJson _ _
    · exact offWire_unhandledError
  | health =>
    exact ensures_offWire ⟨fun _ => rfl, fun _ => ⟨fun _ => rfl, fun _ => ⟨fun _ => rfl,
      fun _ => offWire_renderJson _ _⟩⟩⟩
  | ui => exact ensures_offWire trivial
  | metrics => exact ensures_offWire ⟨fun _ => rfl, fun _ => trivial⟩
  | getAudit account limit bounds =>
    refine ensures_offWire (All.bind ⟨fun _ => rfl, fun _ => trivial⟩ fun entries => ?_)
    split
    · exact offWire_renderJson _ _
    · exact offWire_unhandledError
  | getFault => exact ensures_offWire getFaultHandler_offWire
  | setFault mode =>
    exact ensures_offWire ⟨fun _ => rfl, fun _ => ⟨fun _ => rfl, fun _ =>
      getFaultHandler_offWire⟩⟩

/-- Throughout, the events of a handler are those of one call at most. -/
theorem handleApi_oneCall (cfg : GatewaySettings) (req : ApiRequest) :
    (handleApi cfg req).Keeps (OneCall (cfg.maxRetries + 1)) fun reply es =>
      EndsCall (cfg.maxRetries + 1) es (reply.status = 500) := by
  refine (handleApi_endsCall cfg req).keeps ?_
  rintro reply es es' ⟨stage, hstage, -⟩
  exact OneCall.of_append ⟨stage, hstage⟩

end EventLedger
