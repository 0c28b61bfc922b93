import EventLedger.AccountService
import EventLedger.CircuitBreaker

/-!
# The Gateway's client of the Account Service

`AccountClient._call`: the breaker's permission first, then up to
`max_retries + 1` attempts with a backoff between them, and exactly the
classification of outcomes the source makes.  A request is two operations,
sending it and waiting for its outcome, because the Account Service may handle
it at any time in between, or after the client has stopped waiting.

Two expressions of the loop can themselves raise, and what they raise leaves it
like any other exception: the product in `_sleep_backoff`, from the attempt
numbered 1024 on, and `_safe_json` of a body that `json()` gives up on with
something else than a `ValueError`.
-/
namespace EventLedger

open Program

/-- An injected fault. -/
inductive Fault where
  | error
  | timeout
  deriving DecidableEq, Repr

/-- What waiting for a response ends in. -/
inductive Outcome where
  | response (resp : HttpResponse)
  /-- `httpx.TimeoutException` or `httpx.TransportError`. -/
  | transportError
  /-- Any other exception. -/
  | raised

/-- One operation of a Gateway thread: on its database, on the breaker, on the network, or a
reading of its surroundings. -/
inductive GatewayOp where
  | getEvent (eventId : String)
  | insertEvent (event : StoredEvent)
  | now
  | traceId
  | audit (outcome accountId eventId : String) (detail : List (String × Json))
  | allowRequest
  | recordSuccess
  | recordFailure
  | circuitState
  | fault
  | send (accountId : String) (payload : TxPayload)
  | receive (attempt : ℕ)
  | sleepBackoff (attempt : ℕ)

/-- What each operation returns; sending returns no attempt when the URL is refused. -/
@[reducible] def GatewayOp.Ret : GatewayOp → Type
  | .getEvent _ => Option StoredEvent
  | .insertEvent _ => Bool
  | .now => DateTime
  | .traceId => Option String
  | .audit _ _ _ _ => Unit
  | .allowRequest => Bool
  | .recordSuccess => Unit
  | .recordFailure => Unit
  | .circuitState => CircuitState
  | .fault => Option Fault
  | .send _ _ => Option ℕ
  | .receive _ => Outcome
  | .sleepBackoff _ => Unit

/-- A thread of the Gateway. -/
abbrev GatewayProg := Prog GatewayOp GatewayOp.Ret

namespace GatewayProg

/-- `db.get_event(event_id)`. -/
def getEvent (eventId : String) : GatewayProg (Option StoredEvent) :=
  Prog.perform (GatewayOp.getEvent eventId)

/-- `db.insert_event(event)`. -/
def insertEvent (event : StoredEvent) : GatewayProg Bool :=
  Prog.perform (GatewayOp.insertEvent event)

/-- `datetime.now(tz=utc)`. -/
def now : GatewayProg DateTime := Prog.perform GatewayOp.now

/-- `tracing.get_trace_id()`. -/
def traceId : GatewayProg (Option String) := Prog.perform GatewayOp.traceId

/-- `audit.record("EVENT_SUBMIT", outcome, …)`. -/
def audit (outcome accountId eventId : String) (detail : List (String × Json)) : GatewayProg Unit :=
  Prog.perform (GatewayOp.audit outcome accountId eventId detail)

/-- `_breaker.allow_request()`. -/
def allowRequest : GatewayProg Bool := Prog.perform GatewayOp.allowRequest

/-- `_breaker.record_success()`. -/
def recordSuccess : GatewayProg Unit := Prog.perform GatewayOp.recordSuccess

/-- `_breaker.record_failure()`. -/
def recordFailure : GatewayProg Unit := Prog.perform GatewayOp.recordFailure

/-- `client.circuit_state`. -/
def circuitState : GatewayProg CircuitState := Prog.perform GatewayOp.circuitState

/-- `self._fault`. -/
def fault : GatewayProg (Option Fault) := Prog.perform GatewayOp.fault

/-- The request leaves the client. -/
def send (accountId : String) (payload : TxPayload) : GatewayProg (Option ℕ) :=
  Prog.perform (GatewayOp.send accountId payload)

/-- The client waits for the outcome of an attempt. -/
def receive (attempt : ℕ) : GatewayProg Outcome := Prog.perform (GatewayOp.receive attempt)

/-- `_sleep_backoff(attempt)`. -/
def sleepBackoff (attempt : ℕ) : GatewayProg Unit := Prog.perform (GatewayOp.sleepBackoff attempt)

end GatewayProg

/-- `CircuitState.value`. -/
def CircuitState.value : CircuitState → String
  | .closed => "CLOSED"
  | .opened => "OPEN"
  | .halfOpen => "HALF_OPEN"

open GatewayProg

/-! ## Calling -/

/-- `self._client.request("POST", …)`: an unencodable URL raises before anything is sent. -/
def request (accountId : String) (payload : TxPayload) : GatewayProg Outcome := do
  match ← send accountId payload with
  | none => return .raised
  | some attempt => receive attempt

/-- The body of the `try` in `_call`: an injected fault, or the request. -/
def attemptOnce (request : GatewayProg Outcome) : GatewayProg Outcome := do
  if (← fault) = some .error then
    return .transportError
  else if (← fault) = some .timeout then
    return .transportError
  else
    request

/-- `_safe_json(resp)` raises: it catches a `ValueError` only. -/
def HttpResponse.safeJsonRaises (resp : HttpResponse) : Bool :=
  match resp.body with
  | .undecodable => true
  | _ => false

/-- `_safe_json(resp)`; `none` if it raises, or returns what cannot be sent on. -/
def HttpResponse.safeJson (resp : HttpResponse) : Option Json :=
  match resp.body with
  | .json value => some value
  | .text s => some (.obj [("detail", .str s)])
  | .unencodable => none
  | .unencodableText => none
  | .undecodable => none

/-- What `_call` ends in. -/
inductive CallResult where
  | response (resp : HttpResponse)
  /-- `AccountServiceUnavailable`. -/
  | unavailable
  /-- `AccountClientError`. -/
  | clientError (resp : HttpResponse)
  /-- Any other exception. -/
  | raised

/-- In `_sleep_backoff`, `2 ** attempt` is too large for the float that `backoff_base` is: the
product raises an `OverflowError`, before `min` caps it. -/
def backoffOverflows (attempt : ℕ) : Bool := 1024 ≤ attempt

/-- The end of the loop's body: `_sleep_backoff(attempt)` unless this was the last attempt, and then
the next iteration. -/
def backoffAndRetry (maxRetries attempt : ℕ) (retry : GatewayProg CallResult) :
    GatewayProg CallResult :=
  if attempt < maxRetries then
    if backoffOverflows attempt then return .raised
    else do
      sleepBackoff attempt
      retry
  else retry

/-- The `for attempt in range(self.max_retries + 1)` loop, with `left` iterations to go. -/
def retryLoop (request : GatewayProg Outcome) (maxRetries : ℕ) : ℕ → GatewayProg CallResult
  | 0 => do
    -- All attempts exhausted: count as a circuit failure and surface 503.
    recordFailure
    return .unavailable
  | left + 1 => do
    match ← attemptOnce request with
    | .raised => return .raised
    | .transportError =>
      backoffAndRetry maxRetries (maxRetries - left) (retryLoop request maxRetries left)
    | .response resp =>
      if resp.status < 400 then
        recordSuccess
        return .response resp
      else if resp.status < 500 then
        -- Client error: downstream is healthy, request was bad.
        recordSuccess
        -- The detail of the exception is decoded here, after the report.
        return if resp.safeJsonRaises then .raised else .clientError resp
      else backoffAndRetry maxRetries (maxRetries - left) (retryLoop request maxRetries left)

/-- `AccountClient._call`. -/
def call (request : GatewayProg Outcome) (maxRetries : ℕ) : GatewayProg CallResult := do
  if ← allowRequest then retryLoop request maxRetries (maxRetries + 1)
  else return .unavailable

/-- `resp.json()` of what a call returned. -/
def parsed : CallResult → CallResult
  | .response resp => if resp.jsonRaises then .raised else .response resp
  | result => result

theorem parsed_eq_response {result : CallResult} {resp : HttpResponse} :
    parsed result = .response resp ↔ result = .response resp ∧ resp.jsonRaises = false := by
  cases result with
  | response resp' =>
    rw [parsed]
    split <;> grind
  | _ => simp [parsed]

/-- `AccountClient.apply_transaction`. -/
def clientApplyTransaction (maxRetries : ℕ) (accountId : String) (payload : TxPayload) :
    GatewayProg CallResult := do
  return parsed (← call (request accountId payload) maxRetries)

end EventLedger
