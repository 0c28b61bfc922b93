import EventLedger.Gateway
import EventLedger.ServiceRuns

/-!
# The Event Gateway as a service

All endpoints of the Gateway as programs.  `submit_event` and the client's calls
are the programs of `Gateway`, carried out among the further operations of the
other endpoints.  An answer is rendered as JSON when the handler has returned,
and a value that cannot be rendered ends in the handler for unhandled exceptions
like any other; a request whose parameters fail validation reaches the one
handler the whole application has for that.
-/
namespace EventLedger

open Program

/-! ## Operations -/

/-- One operation of a handler: one of `submit_event`'s, or of another endpoint. -/
inductive ApiOp where
  | core (op : GatewayOp)
  /-- `self._client.request("GET", path, …)`. -/
  | fetch (path : String)
  /-- `audit.record(action, outcome, …)` without an account or an event. -/
  | record (action outcome : String) (detail : List (String × Json))
  | listEvents (accountId : String)
  | listAudit (accountId : Option String) (limit : ℤ)
  | setFault (fault : Option Fault)
  | ping
  | metrics

/-- What each operation returns. -/
@[reducible] def ApiOp.Ret : ApiOp → Type
  | .core op => op.Ret
  | .fetch _ => Outcome
  | .record _ _ _ => Unit
  | .listEvents _ => List StoredEvent
  | .listAudit _ _ => Option (List AuditRow)
  | .setFault _ => Unit
  | .ping => Bool
  | .metrics => Json × String

/-- A handler of the Gateway. -/
abbrev ApiProg := Prog ApiOp ApiOp.Ret

namespace ApiProg

/-- An operation of `submit_event`. -/
def core (op : GatewayOp) : ApiProg op.Ret := Prog.perform (ApiOp.core op)

/-- A program over `submit_event`'s operations. -/
def inCore {α : Type} (p : GatewayProg α) : ApiProg α := p.interpret core

/-- A `GET` of the client is one request where a `POST` waits for its response. -/
def fetching (path : String) : (op : GatewayOp) → ApiProg op.Ret
  | .receive _ => Prog.perform (ApiOp.fetch path)
  | op => core op

/-- `audit.record(action, outcome, …)`. -/
def record (action outcome : String) (detail : List (String × Json)) : ApiProg Unit :=
  Prog.perform (ApiOp.record action outcome detail)

/-- `db.list_events(account)`. -/
def listEvents (accountId : String) : ApiProg (List StoredEvent) :=
  Prog.perform (ApiOp.listEvents accountId)

/-- `db.list_audit(account, limit)`; `none` is an exception. -/
def auditEntries (accountId : Option String) (limit : ℤ) : ApiProg (Option (List AuditRow)) :=
  Prog.perform (ApiOp.listAudit accountId limit)

/-- `client.set_fault(mode)`. -/
def setFault (fault : Option Fault) : ApiProg Unit := Prog.perform (ApiOp.setFault fault)

/-- `db.ping()`. -/
def ping : ApiProg Bool := Prog.perform ApiOp.ping

/-- `metrics.snapshot()` and `metrics.render()`. -/
def metrics : ApiProg (Json × String) := Prog.perform ApiOp.metrics

/-- An unhandled exception, as `install_error_handlers` answers it. -/
def unhandledError : ApiProg HttpResponse := do
  return ⟨500, .json (internalErrorBody (← core .traceId))⟩

/-- A response with this body; `none` is the exception of a body that cannot be written. -/
def render (status : ℕ) (body : Option Json) : ApiProg HttpResponse :=
  match body with
  | some value => return ⟨status, .json value⟩
  | none => unhandledError

/-- A `JSONResponse`. -/
def renderJson (status : ℕ) (value : Json) : ApiProg HttpResponse := render status value.rendered

end ApiProg

open ApiProg

/-! ## The client's reads -/

/-- `AccountClient._call("GET", path)`. -/
def getCall (maxRetries : ℕ) (path : String) : ApiProg CallResult :=
  (call (GatewayProg.receive 0) maxRetries).interpret (fetching path)

/-- `AccountClient.get_balance`. -/
def clientGetBalance (maxRetries : ℕ) (accountId : String) : ApiProg CallResult := do
  return parsed (← getCall maxRetries ("/accounts/" ++ accountId ++ "/balance"))

/-- `AccountClient.get_account`. -/
def clientGetAccount (maxRetries : ℕ) (accountId : String) : ApiProg CallResult := do
  return parsed (← getCall maxRetries ("/accounts/" ++ accountId))

/-! ## Requests -/

/-- What the framework reports about a parameter, as `_validation_handler` projects it. -/
structure ValidationError where
  type : String
  field : String
  message : String

/-- The error as it is serialised. -/
def ValidationError.toJson (e : ValidationError) : Json :=
  .obj [("type", .str e.type), ("field", .str e.field), ("message", .str e.message)]

/-- The endpoints whose parameters are validated. -/
inductive Validated where
  | submitEvent
  | listEvents
  | getAudit
  | setFault
  deriving DecidableEq

/-- A request to the Gateway. -/
inductive ApiRequest where
  | submit (body : EventRequest)
  /-- A `POST /events` with a body that is declared to be JSON and cannot be read, with another
  error than a `JSONDecodeError`: no UTF-8, nested too deep, or with an integer of more digits than
  Python converts. -/
  | unparseable
  /-- A request to this endpoint that fails validation. -/
  | invalid (endpoint : Validated) (errors : List ValidationError)
  | getEvent (eventId : String)
  | listEvents (account : String)
  | getBalance (accountId : String)
  | getAccount (accountId : String)
  | health
  | ui
  | metrics
  | getAudit (account : Option String) (limit : ℤ) (bounds : 1 ≤ limit ∧ limit ≤ 1000)
  | getFault
  | setFault (mode : Option Fault)

/-- What the Gateway is configured with, and what code outside the repository computes. -/
structure GatewaySettings where
  maxRetries : ℕ
  /-- `json.loads`. -/
  loads : String → Option Json
  /-- The console served at `/`. -/
  page : String
  /-- pydantic can dump this value: it is not nested too deep. -/
  serializes : Json → Bool

/-! ## Handlers -/

/-- `POST /events`. -/
def postEvent (cfg : GatewaySettings) (body : EventRequest) : ApiProg HttpResponse := do
  let answer ← inCore (submitEvent cfg.loads cfg.maxRetries body)
  render answer.status (answer.body cfg.serializes)

/-- The framework's `HTTPException` for a body it cannot read, before any handler of the
application. -/
def unparseableHandler : ApiProg HttpResponse :=
  renderJson 400 (.obj [("detail", .str "There was an error parsing the body")])

/-- `_validation_handler`. -/
def validationHandler (errors : List ValidationError) : ApiProg HttpResponse := do
  record "EVENT_SUBMIT" "REJECTED_VALIDATION" [("errors", .number (toString errors.length))]
  renderJson 400 (.obj [("error", .str "validation_error"),
    ("detail", .arr (errors.map ValidationError.toJson))])

/-- `get_event`. -/
def getEventHandler (cfg : GatewaySettings) (eventId : String) : ApiProg HttpResponse := do
  match ← core (.getEvent eventId) with
  | none =>
    renderJson 404 (.obj [("error", .str "not_found"),
      ("message", .str ("No event '" ++ eventId ++ "'"))])
  | some event =>
    match event.toResponse cfg.loads false with
    | some response => render 200 (response.serialized cfg.serializes)
    | none => unhandledError

/-- `list_events`: each event is dumped as it is, and the whole is written like any dictionary. -/
def listEventsHandler (cfg : GatewaySettings) (account : String) : ApiProg HttpResponse := do
  let events ← listEvents account
  match events.mapM fun e => (e.toResponse cfg.loads false).bind (·.modelDump cfg.serializes) with
  | some dumps =>
    renderJson 200 (.obj [("accountId", .str account),
      ("count", .number (toString events.length)), ("events", .arr dumps)])
  | none => unhandledError

/-- What `get_balance` and `get_account` make of the client's answer. -/
def readHandler (client : ApiProg CallResult) : ApiProg HttpResponse := do
  match ← client with
  | .response resp => render 200 (resp.safeJson.bind Json.rendered)
  | .unavailable =>
    renderJson 503 (.obj [("error", .str "account_service_unavailable"),
      ("message", .str "The Account Service is currently unreachable.")])
  | .clientError resp =>
    render resp.status (resp.safeJson.bind fun detail =>
      (Json.obj [("error", .str "account_service_rejected"), ("detail", detail)]).rendered)
  | .raised => unhandledError

/-- `health`. -/
def healthHandler : ApiProg HttpResponse := do
  let databaseOk ← ping
  let circuit ← core .circuitState
  let snapshot := (← metrics).1
  renderJson (if databaseOk then 200 else 503)
    (.obj [("status", .str (if databaseOk then "ok" else "degraded")),
      ("service", .str "event-gateway"),
      ("checks", .obj [("database", .str (if databaseOk then "ok" else "down")),
        ("account_service_circuit", .str circuit.value)]),
      ("metrics", snapshot)])

/-- An audit entry as it is listed; `none` is the exception of an unreadable detail. -/
def AuditRow.toJson (loads : String → Option Json) (row : AuditRow) : Option Json := do
  let detail ← match row.detailJson with
    | none => some .null
    | some text => if text = "" then some .null else loads text
  some (.obj [("id", .number (toString row.id)), ("timestamp", .str row.timestamp),
    ("service", .str row.service), ("action", .str row.action), ("outcome", .str row.outcome),
    ("account_id", row.accountId.elim .null .str), ("event_id", row.eventId.elim .null .str),
    ("trace_id", row.traceId.elim .null .str), ("detail", detail)])

/-- `get_audit`. -/
def getAuditHandler (cfg : GatewaySettings) (account : Option String) (limit : ℤ) :
    ApiProg HttpResponse := do
  match (← auditEntries account limit).bind fun rows => rows.mapM (·.toJson cfg.loads) with
  | some entries => renderJson 200 (.obj [("entries", .arr entries)])
  | none => unhandledError

/-- The `mode` of an injected fault. -/
def faultMode : Option Fault → String
  | none => "off"
  | some .error => "error"
  | some .timeout => "timeout"

/-- `get_fault`. -/
def getFaultHandler : ApiProg HttpResponse := do
  let fault ← core .fault
  let circuit ← core .circuitState
  renderJson 200 (.obj [("enabled", .bool true), ("mode", .str (faultMode fault)),
    ("circuit", .str circuit.value)])

/-- `set_fault`. -/
def setFaultHandler (mode : Option Fault) : ApiProg HttpResponse := do
  setFault mode
  record "TEST_FAULT" "SET" [("mode", .str (faultMode mode))]
  getFaultHandler

/-- What becomes of a request. -/
def handleApi (cfg : GatewaySettings) : ApiRequest → ApiProg HttpResponse
  | .submit body => postEvent cfg body
  | .unparseable => unparseableHandler
  | .invalid _ errors => validationHandler errors
  | .getEvent eventId => getEventHandler cfg eventId
  | .listEvents account => listEventsHandler cfg account
  | .getBalance accountId => readHandler (clientGetBalance cfg.maxRetries accountId)
  | .getAccount accountId => readHandler (clientGetAccount cfg.maxRetries accountId)
  | .health => healthHandler
  | .ui => return ⟨200, .text cfg.page⟩
  | .metrics => do return ⟨200, .text (← ApiProg.metrics).2⟩
  | .getAudit account limit _ => getAuditHandler cfg account limit
  | .getFault => getFaultHandler
  | .setFault mode => setFaultHandler mode

/-! ## Running -/

/-- What an operation reads from outside the database: the clock and the trace, the breaker and the
injected fault, and how the network treats a request. -/
structure GatewayEnv where
  surroundings : Surroundings
  allowed : Bool
  circuit : CircuitState
  fault : Option Fault
  attempt : Option ℕ
  outcome : Outcome
  reachable : Bool
  metrics : Json × String

/-- One operation of `submit_event` on the database. -/
def gatewayDbExec (env : GatewayEnv) (db : GatewayDB) : (o : GatewayOp) → GatewayDB × o.Ret
  | .getEvent eventId => (db, db.getEvent eventId)
  | .insertEvent event =>
    match db.insertEvent event with
    | some db' => (db', true)
    | none => (db, false)
  | .now => (db, env.surroundings.now)
  | .traceId => (db, env.surroundings.traceId)
  | .audit outcome accountId eventId detail =>
    (db.appendAudit (AuditTrail.entry "event-gateway" env.surroundings "EVENT_SUBMIT" outcome
      (some accountId) (some eventId) detail), ())
  | .allowRequest => (db, env.allowed)
  | .recordSuccess => (db, ())
  | .recordFailure => (db, ())
  | .circuitState => (db, env.circuit)
  | .fault => (db, env.fault)
  | .send _ _ => (db, env.attempt)
  | .receive _ => (db, env.outcome)
  | .sleepBackoff _ => (db, ())

/-- One operation of a handler. -/
def apiExec (env : GatewayEnv) (db : GatewayDB) : (o : ApiOp) → Option (GatewayDB × o.Ret)
  | .core op => some (gatewayDbExec env db op)
  | .fetch _ => some (db, env.outcome)
  | .record action outcome detail =>
    some (db.appendAudit (AuditTrail.entry "event-gateway" env.surroundings action outcome none none
      detail), ())
  | .listEvents accountId => some (db, db.listEvents accountId)
  | .listAudit accountId limit => some (db, listAudit db.auditLog accountId limit)
  | .setFault _ => some (db, ())
  | .ping => some (db, env.reachable)
  | .metrics => some (db, env.metrics)

/-- The Gateway. -/
def gatewayService (cfg : GatewaySettings) :
    Service ApiRequest ApiOp ApiOp.Ret HttpResponse GatewayDB GatewayEnv where
  handle := handleApi cfg
  exec := apiExec

/-- An insert adds its row, or the key is taken and nothing changes. -/
theorem apiExec_insert {env : GatewayEnv} {db db' : GatewayDB} {event : StoredEvent}
    {created : Bool} (h : apiExec env db (.core (.insertEvent event)) = some (db', created)) :
    (created = true ∧ db'.events.rows = db.events.rows ++ [event] ∧ db'.auditLog = db.auditLog) ∨
      (created = false ∧ db' = db ∧ db.getEvent event.eventId ≠ none) := by
  simp only [apiExec, gatewayDbExec, Option.some.injEq] at h
  cases hinsert : db.insertEvent event with
  | some db'' =>
    rw [hinsert] at h
    cases h
    obtain ⟨table, htable, rfl⟩ := Option.map_eq_some_iff.mp hinsert
    exact Or.inl ⟨rfl, KeyedTable.Table.rows_insert htable, rfl⟩
  | none =>
    rw [hinsert] at h
    cases h
    obtain ⟨row, hrow⟩ :=
      KeyedTable.Table.insert_eq_none_iff.mp (Option.map_eq_none_iff.mp hinsert)
    exact Or.inr ⟨rfl, rfl, by rw [GatewayDB.getEvent, hrow]; exact Option.some_ne_none row⟩

/-- The entry an operation appends to the log. -/
def ApiOp.entry (env : GatewayEnv) : ApiOp → Option AuditEntry
  | .core (.audit outcome accountId eventId detail) =>
    some (AuditTrail.entry "event-gateway" env.surroundings "EVENT_SUBMIT" outcome
      (some accountId) (some eventId) detail)
  | .record action outcome detail =>
    some (AuditTrail.entry "event-gateway" env.surroundings action outcome none none detail)
  | _ => none

theorem apiExec_log {env : GatewayEnv} {db db' : GatewayDB} {o : ApiOp} {r : o.Ret}
    (h : apiExec env db o = some (db', r)) :
    db'.auditLog = (o.entry env).elim db.auditLog (appendAudit db.auditLog) := by
  cases o with
  | core op =>
    cases op with
    | insertEvent event =>
      rcases apiExec_insert h with ⟨-, -, hlog⟩ | ⟨-, rfl, -⟩
      · exact hlog
      · rfl
    | _ =>
      cases h
      rfl
  | _ =>
    cases h
    rfl

/-- A state of the Gateway. -/
abbrev GatewayState := Service.State ApiRequest ApiOp ApiOp.Ret HttpResponse GatewayDB

/-- A step of the Gateway. -/
abbrev GatewayLabel := Service.Label ApiRequest GatewayEnv

/-- Surroundings in which every request is admitted and answered `201`. -/
def calmEnv : GatewayEnv where
  surroundings := ⟨sampleTimestamp, none⟩
  allowed := true
  circuit := .closed
  fault := none
  attempt := some 0
  outcome := .response ⟨201, .json (.obj [])⟩
  reachable := true
  metrics := (.null, "")

/-- A Gateway without stored metadata to read back. -/
def calmSettings : GatewaySettings := ⟨2, fun _ => none, "", fun _ => true⟩

/-- The `i`-th request performs its next `n` operations. -/
def acts (i n : ℕ) : List GatewayLabel := List.replicate n (.act i calmEnv)

/-! ## What the endpoints take over from `submit_event`'s programs -/

/-- An event of `submit_event`'s, as the service sees it. -/
def inApi (e : Event GatewayOp GatewayOp.Ret) : Event ApiOp ApiOp.Ret := ⟨.core e.1, e.2⟩

section
variable {α : Type} {p : GatewayProg α}

theorem ApiProg.core_keeps (op : GatewayOp) (J : List (Event ApiOp ApiOp.Ret) → Prop)
    (Q : op.Ret → List (Event ApiOp ApiOp.Ret) → Prop) (hJ : J [])
    (hQ : ∀ r, J [inApi ⟨op, r⟩] ∧ Q r [inApi ⟨op, r⟩]) : (core op).Keeps J Q :=
  Prog.keeps_act.mpr ⟨hJ, fun r => Prog.keeps_done.mpr (hQ r)⟩

theorem ApiProg.inCore_ensures {Post : α → List (Event GatewayOp GatewayOp.Ret) → Prop}
    (h : p.Ensures Post) :
    (inCore p).Ensures fun a es' => ∃ es, es' = List.map inApi es ∧ Post a es :=
  (Prog.Keeps.interpret_map core_keeps h).mono (fun _ _ => trivial) fun _ _ _ hPost => hPost

theorem ApiProg.inCore_matches {γ : Type} {f g : Event ApiOp ApiOp.Ret → List γ}
    (h : p.Matches (f ∘ inApi) (g ∘ inApi)) : (inCore p).Matches f g :=
  Prog.Matches.interpret_map core_keeps h

end

end EventLedger
