import EventLedger.DownstreamErrors

/-!
# One audit entry for every submission

Every exit of `submit_event` appends one entry, but for the one that loses an
insert race; the handler for validation errors, meant for submissions, serves
every endpoint; and a body that cannot be read at all is answered by the
framework, which keeps no trail.  An entry is appended before the answer is
written, too, so that one is left behind where that fails.
`submissions_audited` says that apart from these cases, entries and answered
submissions correspond.
-/
namespace EventLedger

open Program Prog Service LabelledRun

/-! ## Entries -/

/-- The outcome, the account and the event of an `EVENT_SUBMIT` entry. -/
abbrev SubmitEntry : Type := String × Option String × Option String

/-- The `EVENT_SUBMIT` entries of a log, in order. -/
def submissionLog (log : List AuditRow) : List SubmitEntry :=
  (log.filter (·.action = "EVENT_SUBMIT")).map fun row => (row.outcome, row.accountId, row.eventId)

/-- The entry an operation appends, if it is about a submission. -/
def submitEntries : Event ApiOp ApiOp.Ret → List SubmitEntry
  | ⟨.core (.audit outcome accountId eventId _), _⟩ => [(outcome, some accountId, some eventId)]
  | ⟨.record action outcome _, _⟩ => if action = "EVENT_SUBMIT" then [(outcome, none, none)] else []
  | _ => []

/-- The outcome that goes with the status a submission is answered with. -/
def submitOutcome (status : ℕ) : Option String :=
  if status = 200 then some "DUPLICATE"
  else if status = 201 then some "ACCEPTED"
  else if status = 503 then some "DOWNSTREAM_UNAVAILABLE"
  else if 400 ≤ status ∧ status < 500 then some "DOWNSTREAM_REJECTED"
  else none

theorem submitOutcome_rejected {status : ℕ} (h400 : 400 ≤ status) (h500 : status < 500) :
    submitOutcome status = some "DOWNSTREAM_REJECTED" := by
  unfold submitOutcome
  rw [if_neg (by omega), if_neg (by omega), if_neg (by omega), if_pos ⟨h400, h500⟩]

/-- The entry that belongs to a submission answered with this status. -/
def submissionOf (body : EventRequest) (status : ℕ) : List SubmitEntry :=
  (submitOutcome status).toList.map fun outcome =>
    (outcome, some body.accountId, some body.eventId)

/-- The entry that belongs to a request and its answer. -/
def entryOf : ApiRequest → HttpResponse → List SubmitEntry
  | .submit body, answer => submissionOf body answer.status
  | .unparseable, answer =>
    if answer.status = 400 then [("REJECTED_VALIDATION", none, none)] else []
  | .invalid .submitEvent _, answer =>
    if answer.status = 400 then [("REJECTED_VALIDATION", none, none)] else []
  | _, _ => []

/-- The entries that belong to the requests answered so far. -/
def expectedLog (s : GatewayState) : List SubmitEntry :=
  s.threads.flatMap fun th =>
    match th.rest with
    | .done answer => entryOf th.request answer
    | .act _ _ => []

/-! ## What a submission appends -/

section
variable {cfg : GatewaySettings} {body : EventRequest} {status : ℕ} {event : StoredEvent}

/-- The row can be shown: its metadata reads back, and the response can be serialised. -/
def Renders (cfg : GatewaySettings) (event : StoredEvent) : Prop :=
  ∀ duplicate, ∃ response, event.toResponse cfg.loads duplicate = some response ∧
    response.dumpable cfg.serializes

/-- A downstream 4xx can be passed on, unless its detail cannot be decoded in the first place. -/
def Relays (resp : HttpResponse) : Prop :=
  400 ≤ resp.status → resp.status < 500 → resp.safeJsonRaises = false → rejectedBody resp ≠ none

/-- Nothing has come back that an exit of the handler does not reckon with: rows can be shown,
inserts are not refused, and a downstream 4xx can be passed on. -/
def EventSound (cfg : GatewaySettings) : Event GatewayOp GatewayOp.Ret → Prop
  | ⟨.getEvent _, some event⟩ => Renders cfg event
  | ⟨.insertEvent event, created⟩ => created = true ∧ Renders cfg event
  | ⟨.receive _, .response resp⟩ => Relays resp
  | _ => True

/-- If nothing unreckoned has come back, the answer can be written and the entry is there. -/
def Audited (cfg : GatewaySettings) (body : EventRequest) (answer : Answer)
    (es : List (Event GatewayOp GatewayOp.Ret)) : Prop :=
  (∀ e ∈ es, EventSound cfg e) → answer.body cfg.serializes ≠ none ∧
    es.flatMap (submitEntries ∘ inApi) = submissionOf body answer.status

/-- A row with metadata that reads back and can be dumped can be shown. -/
theorem renders_stored {amount : String} {now : DateTime}
    (hloads : ∀ fields, body.metadata = some fields →
      cfg.loads (Json.dumps (.obj fields)) = some (.obj fields))
    (hserializes : ∀ fields, body.metadata = some fields → cfg.serializes (.obj fields)) :
    Renders cfg (body.stored amount now) := by
  intro duplicate
  have hread : ∃ metadata,
      readMetadata cfg.loads (body.stored amount now).metadataJson = some metadata ∧
        ∀ fields, metadata = some fields → cfg.serializes (.obj fields) := by
    simp only [EventRequest.stored]
    cases hmetadata : body.metadata with
    | none => exact ⟨none, rfl, fun _ h => by cases h⟩
    | some fields =>
      dsimp only
      by_cases hempty : fields.isEmpty
      · rw [if_pos hempty]
        exact ⟨none, rfl, fun _ h => by cases h⟩
      · rw [if_neg hempty, readMetadata]
        split
        · exact ⟨none, rfl, fun _ h => by cases h⟩
        · rw [hloads fields hmetadata]
          exact ⟨some fields, rfl, fun _ h => by
            cases h
            exact hserializes fields hmetadata⟩
  obtain ⟨metadata, hmetadata, hdumps⟩ := hread
  refine ⟨_, by rw [StoredEvent.toResponse, hmetadata]; rfl, ?_⟩
  exact Option.all_eq_true _ _ |>.mpr hdumps

theorem respond_audited (hrow : Renders cfg event) (duplicate : Bool) :
    (respond cfg.loads status event duplicate).Ensures fun answer es =>
      es = [] ∧ answer.status = status ∧ answer.body cfg.serializes ≠ none := by
  obtain ⟨response, hresponse, hdumpable⟩ := hrow duplicate
  rw [respond, hresponse]
  refine ensures_done.mpr ⟨rfl, rfl, ?_⟩
  simp [Answer.body, EventResponse.serialized_eq, hdumpable]

theorem unhandled_audited (cfg : GatewaySettings) : unhandled.Ensures fun answer es =>
    es.flatMap (submitEntries ∘ inApi) = [] ∧ answer.status = 500 ∧
      answer.body cfg.serializes ≠ none :=
  ensures_act.mpr fun traceId => ensures_done.mpr ⟨rfl, rfl, by simp [Answer.body]⟩

theorem persistEvent_audited (body : EventRequest) (amount : String) :
    (persistEvent cfg.loads body amount).Ensures (Audited cfg body) := by
  refine ensures_act.mpr fun now => ensures_act.mpr fun created => ?_
  cases created with
  | true =>
    refine ensures_act.mpr fun _ => ?_
    by_cases hrow : Renders cfg (body.stored amount now)
    · refine (respond_audited hrow false).mono ?_
      rintro answer _ ⟨rfl, hstatus, hbody⟩ -
      refine ⟨hbody, ?_⟩
      rw [hstatus]
      rfl
    · refine ensures_of_forall fun answer es hsound => absurd ?_ hrow
      exact (hsound _ (List.mem_cons_of_mem _ List.mem_cons_self)).2
  | false =>
    refine ensures_of_forall fun answer es hsound => ?_
    cases (hsound _ (List.mem_cons_of_mem _ List.mem_cons_self)).1

theorem receive_mem_of_outcome {es : List (Event GatewayOp GatewayOp.Ret)} {resp : HttpResponse}
    (h : .response resp ∈ outcomes (gatewaySteps es)) :
    ∃ attempt, ⟨.receive attempt, .response resp⟩ ∈ es := by
  obtain ⟨⟨op, r⟩, hmem, hevent⟩ := List.mem_filterMap.mp (step_mem_of_outcome h)
  cases op with
  | receive attempt =>
    cases r with
    | response resp' =>
      cases hevent
      exact ⟨attempt, hmem⟩
    | _ => cases hevent
  | send accountId payload => cases r <;> cases hevent
  | _ => cases hevent

/-- The operations of a call append nothing. -/
theorem submitEntries_of_call {es : List (Event GatewayOp GatewayOp.Ret)}
    (h : ∀ e ∈ es, e.1.OfCall) : es.flatMap (submitEntries ∘ inApi) = [] := by
  rw [List.flatMap_eq_nil_iff]
  rintro ⟨op, r⟩ he
  have hop : op.OfCall := h _ he
  cases op with
  | audit outcome accountId eventId detail => exact absurd hop id
  | _ => rfl

/-- **`submit_event`.**  By the exits of the handler. -/
theorem submitEvent_audited (cfg : GatewaySettings) (body : EventRequest) :
    (submitEvent cfg.loads cfg.maxRetries body).Ensures (Audited cfg body) := by
  simp only [submitEvent, GatewayProg.getEvent, GatewayProg.audit, GatewayProg.circuitState,
    perform_bind, pure_eq]
  refine ensures_act.mpr fun existing => ?_
  cases existing with
  | some existing =>
    -- a row that cannot be shown is one that has come back unsound
    refine ensures_act.mpr fun _ => ?_
    by_cases hrow : Renders cfg existing
    · refine (respond_audited hrow true).mono ?_
      rintro answer _ ⟨rfl, hstatus, hbody⟩ -
      refine ⟨hbody, ?_⟩
      rw [hstatus]
      rfl
    · exact ensures_of_forall fun answer es hsound => absurd (hsound _ List.mem_cons_self) hrow
  | none =>
    cases amountStr body.amount with
    | none =>
      refine (unhandled_audited cfg).mono ?_
      rintro answer es ⟨hentries, hstatus, hbody⟩ -
      refine ⟨hbody, ?_⟩
      rw [hstatus, List.flatMap_cons, hentries]
      rfl
    | some amount =>
      have hcall := (clientApplyTransaction_ends cfg.maxRetries body.accountId
        (body.payload amount)).and
        (clientApplyTransaction_all body.accountId (body.payload amount)).ensures
      refine Ensures.bind hcall fun result es hcalled => ?_
      obtain ⟨hends, hops⟩ := hcalled
      have hnone : ∀ es', List.flatMap (submitEntries ∘ inApi)
          (⟨.getEvent body.eventId, none⟩ :: (es ++ es')) =
            es'.flatMap (submitEntries ∘ inApi) := by
        intro es'
        rw [List.flatMap_cons, List.flatMap_append, submitEntries_of_call hops]
        rfl
      cases result with
      | unavailable =>
        refine ensures_act.mpr fun circuit => ensures_act.mpr fun _ => ensures_done.mpr ?_
        intro _
        refine ⟨by simp [Answer.body, Json.rendered, Json.finite, Json.finiteFields], ?_⟩
        rw [hnone]
        rfl
      | clientError resp =>
        obtain ⟨hdecisive, h400, hdecoded⟩ := hends.of_clientError
        obtain ⟨attempt, hreceive⟩ := receive_mem_of_outcome hdecisive.1
        -- the 4xx has been received, so that it can be passed on
        have hrelays : ∀ es', (∀ e ∈ (⟨.getEvent body.eventId, none⟩ :: (es ++ es') :
            List (Event GatewayOp GatewayOp.Ret)), EventSound cfg e) → rejectedBody resp ≠ none :=
          fun es' hsound => hsound _ (List.mem_cons_of_mem _ (List.mem_append_left _ hreceive))
            h400 hdecisive.2.1 hdecoded
        refine ensures_act.mpr fun _ => ?_
        cases hdetail : resp.safeJson with
        | some detail =>
          refine ensures_done.mpr fun hsound => ?_
          have hbody := hrelays _ hsound
          rw [rejectedBody, hdetail] at hbody
          refine ⟨hbody, ?_⟩
          rw [hnone, submissionOf, Answer.status, submitOutcome_rejected h400 hdecisive.2.1]
          rfl
        | none =>
          refine ensures_of_forall fun answer es' hsound => absurd ?_ (hrelays _ hsound)
          rw [rejectedBody, hdetail, Option.bind_none]
      | raised =>
        refine (unhandled_audited cfg).mono ?_
        rintro answer es' ⟨hentries, hstatus, hbody⟩ -
        refine ⟨hbody, ?_⟩
        rw [hnone, hentries, hstatus]
        rfl
      | response resp =>
        refine (persistEvent_audited body amount).mono ?_
        intro answer es' haudited hsound
        rw [hnone]
        exact haudited fun e he => hsound e (List.mem_cons_of_mem _ (List.mem_append_right _ he))

end

/-! ## What any request appends -/

section
variable {cfg : GatewaySettings}

/-- The same of the operations of all endpoints. -/
def ApiEventSound (cfg : GatewaySettings) : Event ApiOp ApiOp.Ret → Prop
  | ⟨.core op, r⟩ => EventSound cfg ⟨op, r⟩
  | _ => True

/-- The request is not one to another endpoint that fails validation, nor a submission that does not
get as far as the application. -/
def ApiRequest.Auditable : ApiRequest → Prop
  | .invalid endpoint _ => endpoint = .submitEvent
  | .unparseable => False
  | _ => True

theorem submitEntries_of_reads {es : List (Event ApiOp ApiOp.Ret)} (h : ∀ e ∈ es, e.1.Reads) :
    es.flatMap submitEntries = [] := by
  rw [List.flatMap_eq_nil_iff]
  rintro ⟨op, r⟩ he
  have hop : op.Reads := h _ he
  cases op with
  | core op =>
    cases op with
    | audit outcome accountId eventId detail => exact absurd hop id
    | _ => rfl
  | record action outcome detail => exact absurd hop id
  | _ => rfl

theorem render_audited {status : ℕ} {body : Option Json} :
    (ApiProg.render status body).Ensures fun answer es =>
      es.flatMap submitEntries = [] ∧ Rendered status body answer := by
  refine render_ensures.mono ?_
  rintro answer es ⟨htrace, hrendered⟩
  refine ⟨submitEntries_of_reads ?_, hrendered⟩
  rintro ⟨op, r⟩ he
  cases htrace _ he
  trivial

theorem finiteItems_errors (errors : List ValidationError) :
    Json.finiteItems (errors.map ValidationError.toJson) = true := by
  refine Json.finiteItems_iff.mpr fun value hvalue => ?_
  obtain ⟨e, -, rfl⟩ := List.mem_map.mp hvalue
  simp [ValidationError.toJson, Json.finite, Json.finiteFields]

/-- **Every request.**  If nothing unreckoned has come back, a handler has appended the entry that
belongs to its request and its answer. -/
theorem handleApi_audited (cfg : GatewaySettings) {req : ApiRequest} (hreq : req.Auditable) :
    (handleApi cfg req).Ensures fun answer es =>
      (∀ e ∈ es, ApiEventSound cfg e) → es.flatMap submitEntries = entryOf req answer := by
  by_cases hwrites : req.Writes
  · cases req with
    | submit body =>
      refine Ensures.bind (ApiProg.inCore_ensures
        (submitEvent_audited cfg body)) ?_
      rintro a _ ⟨es, rfl, haudited⟩
      refine render_audited.mono ?_
      rintro answer es' ⟨hread, hrendered⟩ hsound
      obtain ⟨hbody, hentries⟩ := haudited fun e he =>
        hsound (inApi e) (List.mem_append_left _ (List.mem_map_of_mem he))
      have hmap : (es.map inApi).flatMap submitEntries =
          es.flatMap (submitEntries ∘ inApi) := by
        rw [List.flatMap_map]
        rfl
      rw [List.flatMap_append, hread, List.append_nil, hmap, hentries]
      rcases hrendered with ⟨value, -, rfl⟩ | ⟨hnot, -⟩
      · rfl
      · exact absurd hnot hbody
    | invalid endpoint errors =>
      cases (show endpoint = .submitEvent from hreq)
      refine ensures_act.mpr fun _ => render_audited.mono ?_
      rintro answer es ⟨hread, hrendered⟩ -
      rw [List.flatMap_cons, hread]
      rcases hrendered with ⟨value, -, rfl⟩ | ⟨hnot, -⟩
      · rfl
      · rw [Json.rendered_eq_none_iff] at hnot
        simp [Json.finite, Json.finiteFields, finiteItems_errors] at hnot
    | setFault mode =>
      refine ensures_act.mpr fun _ => ensures_act.mpr fun _ => ?_
      refine getFaultHandler_all.ensures.mono ?_
      rintro answer es hread -
      show submitEntries _ ++ (submitEntries _ ++ es.flatMap submitEntries) = _
      rw [submitEntries_of_reads hread]
      rfl
    | _ => exact absurd hwrites id
  · refine (handleApi_all cfg hwrites).ensures.mono ?_
    rintro answer es hread -
    rw [submitEntries_of_reads hread]
    cases req with
    | submit body => exact absurd trivial hwrites
    | invalid endpoint errors => exact absurd trivial hwrites
    | unparseable => exact absurd hreq id
    | _ => rfl

/-! ## Runs -/

/-- The step keeps to the exits that append an entry: an insert finds its key free, and a row that
can be shown; a downstream 4xx can be passed on. -/
def OpSound (cfg : GatewaySettings) (env : GatewayEnv) (db : GatewayDB) : ApiOp → Prop
  | .core (.insertEvent event) => db.getEvent event.eventId = none ∧ Renders cfg event
  | .core (.receive _) => ∀ resp, env.outcome = .response resp → Relays resp
  | _ => True

/-- No request to another endpoint fails validation, the body of no submission is unreadable, and
every operation keeps to these exits. -/
def StepSound (cfg : GatewaySettings) (s : GatewayState) :
    GatewayLabel → GatewayState → Prop
  | .arrive req, _ => req.Auditable
  | .act i env, _ => ∀ th o k, s.threads[i]? = some th → th.rest = .act o k →
      OpSound cfg env s.store o

instance (cfg : GatewaySettings) (event : StoredEvent) : Decidable (Renders cfg event) :=
  have (duplicate : Bool) : Decidable (∃ response,
      event.toResponse cfg.loads duplicate = some response ∧
        response.dumpable cfg.serializes) :=
    match h : event.toResponse cfg.loads duplicate with
    | some response => decidable_of_iff (response.dumpable cfg.serializes = true) (by simp)
    | none => .isFalse (by simp)
  inferInstanceAs (Decidable (∀ duplicate, ∃ response, _ ∧ _))

instance (resp : HttpResponse) : Decidable (Relays resp) :=
  decidable_of_iff (400 ≤ resp.status → resp.status < 500 → resp.safeJsonRaises = false →
    (rejectedBody resp).isSome = true) (by simp [Relays, Option.isSome_iff_ne_none])

instance (cfg : GatewaySettings) (env : GatewayEnv) (db : GatewayDB) :
    (o : ApiOp) → Decidable (OpSound cfg env db o)
  | .core (.insertEvent _) => inferInstanceAs (Decidable (_ ∧ _))
  | .core (.receive _) =>
    match h : env.outcome with
    | .response resp => decidable_of_iff (Relays resp) (by simp [OpSound, h])
    | .transportError => .isTrue (by simp [OpSound, h])
    | .raised => .isTrue (by simp [OpSound, h])
  | .core (.getEvent _) | .core .now | .core .traceId | .core (.audit _ _ _ _)
  | .core .allowRequest | .core .recordSuccess | .core .recordFailure | .core .circuitState
  | .core .fault | .core (.send _ _) | .core (.sleepBackoff _) | .fetch _ | .record _ _ _
  | .listEvents _ | .listAudit _ _ | .setFault _ | .ping | .metrics => .isTrue trivial

instance (cfg : GatewaySettings) (s : GatewayState) :
    (a : GatewayLabel) → (t : GatewayState) → Decidable (StepSound cfg s a t)
  | .arrive (.invalid endpoint _), _ => inferInstanceAs (Decidable (endpoint = .submitEvent))
  | .arrive .unparseable, _ => .isFalse id
  | .arrive (.submit _), _ | .arrive (.getEvent _), _ | .arrive (.listEvents _), _
  | .arrive (.getBalance _), _ | .arrive (.getAccount _), _ | .arrive .health, _ | .arrive .ui, _
  | .arrive .metrics, _ | .arrive (.getAudit _ _ _), _ | .arrive .getFault, _
  | .arrive (.setFault _), _ => .isTrue trivial
  | .act i env, _ =>
    match hthread : s.threads[i]? with
    | none => .isTrue fun th o k h => by simp [hthread] at h
    | some th =>
      match hrest : th.rest with
      | .done _ => .isTrue fun th' o k h h' => by
          cases Option.some.inj (hthread.symm.trans h)
          simp [hrest] at h'
      | .act o k => decidable_of_iff (OpSound cfg env s.store o) <| by
          constructor
          · intro hop th' o' k' h h'
            cases Option.some.inj (hthread.symm.trans h)
            cases hrest.symm.trans h'
            exact hop
          · exact fun hstep => hstep th o k hthread hrest

/-- What such steps keep: rows can be shown, and nothing unreckoned has come back to any thread. -/
structure Sound (cfg : GatewaySettings) (s : GatewayState) : Prop where
  ran : ∀ th ∈ s.threads, th.Ran (gatewayService cfg)
  requests : ∀ th ∈ s.threads, th.request.Auditable
  events : ∀ th ∈ s.threads, ∀ e ∈ th.events, ApiEventSound cfg e
  rows : ∀ event ∈ s.store.events.rows, Renders cfg event

/-- What one operation leaves behind. -/
theorem apiExec_sound {env : GatewayEnv} {db db' : GatewayDB}
    {o : ApiOp} {r : o.Ret} (hexec : apiExec env db o = some (db', r))
    (hop : OpSound cfg env db o) (hrows : ∀ event ∈ db.events.rows, Renders cfg event) :
    ApiEventSound cfg ⟨o, r⟩ ∧ ∀ event ∈ db'.events.rows, Renders cfg event := by
  cases o with
  | core op =>
    cases op with
    | insertEvent event =>
      rcases apiExec_insert hexec with ⟨rfl, hrows', -⟩ | ⟨-, -, htaken⟩
      · refine ⟨⟨rfl, hop.2⟩, ?_⟩
        rw [hrows']
        intro row hrow
        rcases List.mem_append.mp hrow with hold | hnew
        · exact hrows row hold
        · rw [List.mem_singleton.mp hnew]
          exact hop.2
      · exact absurd hop.1 htaken
    | getEvent eventId =>
      cases hexec
      refine ⟨?_, hrows⟩
      cases hget : db.getEvent eventId with
      | none => trivial
      | some event => exact hrows event (KeyedTable.Table.mem_of_get hget)
    | receive attempt =>
      cases hexec
      refine ⟨?_, hrows⟩
      cases houtcome : env.outcome with
      | response resp => exact hop resp houtcome
      | transportError => trivial
      | raised => trivial
    | _ =>
      cases hexec
      exact ⟨trivial, hrows⟩
  | _ =>
    cases hexec
    exact ⟨trivial, hrows⟩

/-- **One step.** -/
theorem sound_step {s t : GatewayState} {a : GatewayLabel} (hs : Sound cfg s)
    (hstep : (gatewayService cfg).step s a = some t) (hsound : StepSound cfg s a t) :
    Sound cfg t := by
  have hcases := step_cases hstep
  have hthreads : ∀ th ∈ t.threads, th.request.Auditable ∧
      ∀ e ∈ th.events, ApiEventSound cfg e := by
    refine forall_threads_step hcases
      (fun th hth => ⟨hs.requests th hth, hs.events th hth⟩) ?_ ?_
    · rintro req rfl
      exact ⟨hsound, fun e he => absurd he List.not_mem_nil⟩
    · rintro i env req es o k store r rfl hthread hexec - ⟨hreq, hevents⟩
      refine ⟨hreq, fun e he => ?_⟩
      rcases List.mem_append.mp he with hold | hnew
      · exact hevents e hold
      · rw [List.mem_singleton.mp hnew]
        exact (apiExec_sound hexec (hsound _ o k hthread rfl) hs.rows).1
  have hrows : ∀ event ∈ t.store.events.rows, Renders cfg event := by
    cases hcases with
    | arrive req => exact hs.rows
    | act i env req es o k store r hthread hexec =>
      exact (apiExec_sound hexec (hsound _ o k hthread rfl) hs.rows).2
  exact ⟨run_ran (run_singleton.mpr hstep) hs.ran, fun th hth => (hthreads th hth).1,
    fun th hth => (hthreads th hth).2, hrows⟩

theorem submissionLog_elim (log : List AuditRow) (entry : Option AuditEntry) :
    submissionLog (entry.elim log (appendAudit log)) = submissionLog log ++
      entry.elim [] fun e =>
        if e.action = "EVENT_SUBMIT" then [(e.outcome, e.accountId, e.eventId)] else [] := by
  cases entry with
  | none => exact (List.append_nil _).symm
  | some e => exact selected_concat _

theorem submission_step (env : GatewayEnv) (db : GatewayDB) (o : ApiOp) (db' : GatewayDB)
    (r : o.Ret) (h : apiExec env db o = some (db', r)) :
    submissionLog db'.auditLog = submissionLog db.auditLog ++ submitEntries ⟨o, r⟩ := by
  rw [apiExec_log h, submissionLog_elim]
  cases o with
  | core op => cases op <;> rfl
  | _ => rfl

end

/-- **One entry for every submission.**  In every run whose steps keep to the exits that append an
entry, once no request is in progress, the `EVENT_SUBMIT` entries are those that belong to the
answered submissions, one for one. -/
theorem submissions_audited (cfg : GatewaySettings) (ls : List GatewayLabel)
    (t : GatewayState) (hrun : Run (gatewayService cfg).step (.initial GatewayDB.new) ls t)
    (hsound : Along (gatewayService cfg).step (StepSound cfg) (.initial GatewayDB.new) ls)
    (hquiet : t.Quiet) : (submissionLog t.store.auditLog).Perm (expectedLog t) := by
  have hinitial : Sound cfg (.initial GatewayDB.new) :=
    ⟨fun _ h => absurd h List.not_mem_nil, fun _ h => absurd h List.not_mem_nil,
      fun _ h => absurd h List.not_mem_nil, fun _ h => absurd h List.not_mem_nil⟩
  obtain ⟨ht, -⟩ := hsound.preserves (I := Sound cfg) (D := fun _ _ _ => True)
    (fun s a u hs hstep hcond => ⟨sound_step hs hstep hcond, trivial⟩) hrun hinitial
  have hlog := accounted submission_step hrun
  rw [show submissionLog (GatewayDB.new.auditLog) = [] from rfl, List.nil_append] at hlog
  refine hlog.trans (List.Perm.of_eq ?_)
  refine List.flatMap_congr fun th hth => ?_
  obtain ⟨answer, hanswer⟩ := hquiet th hth
  have htrace : (handleApi cfg th.request).Trace th.events answer := by
    have hran := ht.ran th hth
    unfold Thread.Ran at hran
    rwa [hanswer] at hran
  rw [ensures_iff.mp (handleApi_audited cfg (ht.requests th hth)) th.events answer htrace
    (ht.events th hth), hanswer]

/-! ## Two runs -/

/-- What belongs in the log and what is in it, once no request is in progress. -/
def comparedLogs (t : GatewayState) : Option (List SubmitEntry × List SubmitEntry) :=
  if t.Quiet then some (expectedLog t, submissionLog t.store.auditLog) else none

theorem comparedLogs_eq {t : GatewayState} {logs : List SubmitEntry × List SubmitEntry}
    (h : comparedLogs t = some logs) :
    t.Quiet ∧ expectedLog t = logs.1 ∧ submissionLog t.store.auditLog = logs.2 := by
  unfold comparedLogs at h
  split at h
  · rename_i hquiet
    cases h
    exact ⟨hquiet, rfl, rfl⟩
  · cases h

/-- An event is submitted twice, one time after the other. -/
def submittedTwice : List GatewayLabel :=
  .arrive (.submit sampleEvent) :: acts 0 10 ++ .arrive (.submit sampleEvent) :: acts 1 2

theorem submissions_audited_twice :
    ∃ t, Run (gatewayService calmSettings).step (.initial GatewayDB.new) submittedTwice t ∧
      (submissionLog t.store.auditLog).Perm
        [("ACCEPTED", some "acct-123", some "evt-001"),
          ("DUPLICATE", some "acct-123", some "evt-001")] := by
  obtain ⟨t, hrun, hlogs⟩ := Option.bind_eq_some_iff.mp
    (show (submittedTwice.foldlM (gatewayService calmSettings).step
        (.initial GatewayDB.new)).bind comparedLogs =
      some ([("ACCEPTED", some "acct-123", some "evt-001"),
          ("DUPLICATE", some "acct-123", some "evt-001")],
        [("ACCEPTED", some "acct-123", some "evt-001"),
          ("DUPLICATE", some "acct-123", some "evt-001")]) by decide +kernel)
  obtain ⟨hquiet, hexpected, -⟩ := comparedLogs_eq hlogs
  refine ⟨t, hrun, ?_⟩
  have hsound : Along (gatewayService calmSettings).step (StepSound calmSettings)
      (.initial GatewayDB.new) submittedTwice := by decide +kernel
  have hperm := submissions_audited calmSettings submittedTwice t hrun hsound hquiet
  rwa [hexpected] at hperm

/-- An event is submitted twice at once, and both submissions come to `insert_event`. -/
def lostRace : List GatewayLabel :=
  .arrive (.submit sampleEvent) :: .arrive (.submit sampleEvent) ::
    (acts 0 8 ++ acts 1 8 ++ acts 0 2 ++ acts 1 2)

/-- `GET /events` without an account. -/
def noAccount : List GatewayLabel :=
  .arrive (.invalid .listEvents [⟨"missing", "query.account", "Field required"⟩]) :: acts 0 1

/-- The loser of a race is answered and has no entry; a request that is no submission has one. -/
theorem submissions_not_audited :
    (¬ ∀ (cfg : GatewaySettings) (ls : List GatewayLabel) (t : GatewayState),
      Run (gatewayService cfg).step (.initial GatewayDB.new) ls t → t.Quiet →
        (submissionLog t.store.auditLog).Perm (expectedLog t)) ∧
    (¬ ∀ (cfg : GatewaySettings) (ls : List GatewayLabel) (t : GatewayState),
      Run (gatewayService cfg).step (.initial GatewayDB.new) ls t → t.Quiet →
        expectedLog t ⊆ submissionLog t.store.auditLog) ∧
    ¬ ∀ (cfg : GatewaySettings) (ls : List GatewayLabel) (t : GatewayState),
      Run (gatewayService cfg).step (.initial GatewayDB.new) ls t → t.Quiet →
        submissionLog t.store.auditLog ⊆ expectedLog t := by
  have hmissing : ¬ ∀ (cfg : GatewaySettings) (ls : List GatewayLabel)
      (t : GatewayState), Run (gatewayService cfg).step (.initial GatewayDB.new) ls t → t.Quiet →
        expectedLog t ⊆ submissionLog t.store.auditLog := by
    intro h
    obtain ⟨t, hrun, hlogs⟩ := Option.bind_eq_some_iff.mp
      (show (lostRace.foldlM (gatewayService calmSettings).step (.initial GatewayDB.new)).bind
          comparedLogs =
        some ([("ACCEPTED", some "acct-123", some "evt-001"),
          ("DUPLICATE", some "acct-123", some "evt-001")],
          [("ACCEPTED", some "acct-123", some "evt-001")]) by decide +kernel)
    obtain ⟨hquiet, hexpected, hlog⟩ := comparedLogs_eq hlogs
    have hsubset := h calmSettings lostRace t hrun hquiet
    rw [hexpected, hlog] at hsubset
    exact absurd hsubset (by decide)
  refine ⟨fun h => hmissing fun cfg ls t hrun hquiet => (h cfg ls t hrun hquiet).symm.subset,
    hmissing, ?_⟩
  intro h
  obtain ⟨t, hrun, hlogs⟩ := Option.bind_eq_some_iff.mp
    (show (noAccount.foldlM (gatewayService calmSettings).step (.initial GatewayDB.new)).bind
        comparedLogs =
      some ([], [("REJECTED_VALIDATION", none, none)]) by decide +kernel)
  obtain ⟨hquiet, hexpected, hlog⟩ := comparedLogs_eq hlogs
  have hsubset := h calmSettings noAccount t hrun hquiet
  rw [hexpected, hlog] at hsubset
  exact absurd hsubset (by decide)

end EventLedger
