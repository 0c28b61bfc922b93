import EventLedger.AccountClient

/-!
# The Event Gateway

`submit_event` as a program over the Gateway's operations: look the event up,
apply the transaction downstream, persist the event, answer.  Each exit of the
handler is here with the audit entry it appends — the stored event as a duplicate,
the 503 with the state of the circuit, the Account Service's 4xx, the creation — and
the one that appends none, the lost insert race.

The handler returns before its answer is written.  A stored record is handed to the
framework, which serialises it with null for the numbers JSON does not have;
everything else is a `JSONResponse`, which refuses such numbers.  Writing can fail
either way, and then the answer is that of the handler for unhandled exceptions,
although the entry has been appended.
-/
namespace EventLedger

open Program GatewayProg

/-- What the Gateway answers to `POST /events`. -/
inductive Answer where
  /-- The event is on record. -/
  | recorded (status : ℕ) (response : EventResponse)
  /-- The Account Service could not be reached. -/
  | unavailable
  /-- The Account Service refused the transaction. -/
  | rejected (status : ℕ) (detail : Json)
  /-- An unhandled exception. -/
  | internalError (traceId : Option String)

/-- The answer's status code. -/
def Answer.status : Answer → ℕ
  | .recorded status _ => status
  | .unavailable => 503
  | .rejected status _ => status
  | .internalError _ => 500

/-- The response as it is serialised. -/
def EventResponse.toJson (r : EventResponse) : Json :=
  .obj [("eventId", .str r.eventId), ("accountId", .str r.accountId), ("type", .str r.type.value),
    ("amount", .str r.amount), ("currency", .str r.currency),
    ("eventTimestamp", .str r.eventTimestamp), ("metadata", r.metadata.elim .null .obj),
    ("receivedAt", .str r.receivedAt), ("duplicate", .bool r.duplicate)]

/-- pydantic can dump the response: its metadata is not nested too deep for it. -/
def EventResponse.dumpable (serializes : Json → Bool) (r : EventResponse) : Bool :=
  r.metadata.all fun fields => serializes (.obj fields)

/-- `model_dump()`; `none` if it raises. -/
def EventResponse.modelDump (serializes : Json → Bool) (r : EventResponse) : Option Json :=
  if r.dumpable serializes then some r.toJson else none

theorem EventResponse.toJson_of_modelDump {serializes : Json → Bool} {r : EventResponse}
    {value : Json} (h : r.modelDump serializes = some value) : value = r.toJson := by
  unfold modelDump at h
  split at h
  · exact (Option.some.inj h).symm
  · cases h

/-- What the framework sends for the response, which it dumps in JSON mode: NaN and the infinities
are null. -/
def EventResponse.shown (r : EventResponse) : Json := r.toJson.nulled

/-- The response as the framework serialises it. -/
def EventResponse.serialized (serializes : Json → Bool) (r : EventResponse) : Option Json :=
  (r.modelDump serializes).map Json.nulled

theorem EventResponse.serialized_eq {serializes : Json → Bool} {r : EventResponse} :
    r.serialized serializes = if r.dumpable serializes then some r.shown else none := by
  rw [serialized, modelDump]
  split <;> rfl

theorem EventResponse.serialized_eq_some_iff {serializes : Json → Bool} {r : EventResponse}
    {value : Json} :
    r.serialized serializes = some value ↔ r.dumpable serializes ∧ value = r.shown := by
  rw [serialized_eq]
  split
  · simp [*, eq_comm]
  · simp [*]

theorem EventResponse.serialized_eq_none_iff {serializes : Json → Bool} {r : EventResponse} :
    r.serialized serializes = none ↔ r.dumpable serializes = false := by
  rw [serialized_eq]
  split <;> simp [*]

/-- The content of a `JSONResponse`, written with `allow_nan=False`; `none` is the `ValueError` this
raises. -/
def Json.rendered (value : Json) : Option Json := if value.finite then some value else none

/-- The body an answer is sent with; `none` if it cannot be written.  A stored record is returned
for the framework to serialise, everything else is a `JSONResponse`. -/
def Answer.body (serializes : Json → Bool) : Answer → Option Json
  | .recorded _ response => response.serialized serializes
  | .unavailable => (Json.obj [("error", .str "account_service_unavailable"),
      ("message", .str ("The Account Service is currently unavailable. " ++
        "Please retry; this request was not recorded."))]).rendered
  | .rejected _ detail =>
    (Json.obj [("error", .str "account_service_rejected"), ("detail", detail)]).rendered
  | .internalError traceId => some (internalErrorBody traceId)

/-- An unhandled exception, as `install_error_handlers` answers it. -/
def unhandled : GatewayProg Answer := do return .internalError (← traceId)

/-- Answering with a stored record. -/
def respond (loads : String → Option Json) (status : ℕ) (event : StoredEvent) (duplicate : Bool) :
    GatewayProg Answer :=
  match event.toResponse loads duplicate with
  | some response => return .recorded status response
  | none => unhandled

/-- `submit_event` from step 3 on: persist locally after a successful apply. -/
def persistEvent (loads : String → Option Json) (body : EventRequest) (amount : String) :
    GatewayProg Answer := do
  let stored := body.stored amount (← now)
  if ← insertEvent stored then
    audit "ACCEPTED" stored.accountId stored.eventId
      [("type", .str stored.type.value), ("amount", .str stored.amount),
        ("currency", .str stored.currency)]
    respond loads 201 stored false
  else
    -- Concurrent duplicate landed first; return it idempotently.
    match ← getEvent body.eventId with
    | some existing => respond loads 200 existing true
    | none => unhandled

/-- `submit_event`. -/
def submitEvent (loads : String → Option Json) (maxRetries : ℕ) (body : EventRequest) :
    GatewayProg Answer := do
  -- 1. Idempotency: a previously-seen eventId returns the stored record.
  match ← getEvent body.eventId with
  | some existing =>
    audit "DUPLICATE" body.accountId body.eventId []
    respond loads 200 existing true
  | none =>
    match amountStr body.amount with
    | none => unhandled
    | some amount =>
      -- 2. Apply the transaction downstream first.
      match ← clientApplyTransaction maxRetries body.accountId (body.payload amount) with
      | .unavailable =>
        let circuit ← circuitState
        audit "DOWNSTREAM_UNAVAILABLE" body.accountId body.eventId
          [("circuit_state", .str circuit.value)]
        return .unavailable
      | .clientError resp =>
        audit "DOWNSTREAM_REJECTED" body.accountId body.eventId
          [("status", .number (toString resp.status))]
        match resp.safeJson with
        | some detail => return .rejected resp.status detail
        | none => unhandled
      | .raised => unhandled
      | .response _ => persistEvent loads body amount

end EventLedger
