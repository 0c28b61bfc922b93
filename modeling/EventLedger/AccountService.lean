import EventLedger.AccountPath
import EventLedger.Program
import EventLedger.Stores

/-!
# The Account Service

`apply_transaction` as a program over the operations it performs on its
database, and `serve`, what the service does with a request as it arrives:
routing, validation, and then the handler.

The handler looks the event up, inserts its row if there is none, and, if another
handler was faster, looks it up again; each of these is one step, as the database
holds its lock for one operation and not for two.  `Body` is what the service's
answer is to the client that reads it with `json()`: a value, a value that cannot be
sent on, a text, or bytes on which decoding fails altogether.
-/
namespace EventLedger

open Program

/-- One locked operation of the handler, or a reading of its surroundings. -/
inductive AccountOp where
  | getTransaction (eventId : String)
  | insertTransaction (tx : StoredTransaction)
  | now
  | traceId
  | audit (outcome accountId eventId : String) (detail : List (String × Json))

/-- What each operation returns. -/
@[reducible] def AccountOp.Ret : AccountOp → Type
  | .getTransaction _ => Option StoredTransaction
  | .insertTransaction _ => Bool
  | .now => DateTime
  | .traceId => Option String
  | .audit _ _ _ _ => Unit

/-- A handler of the Account Service. -/
abbrev AccountProg := Prog AccountOp AccountOp.Ret

namespace AccountProg

/-- `db.get_transaction(event_id)`. -/
def getTransaction (eventId : String) : AccountProg (Option StoredTransaction) :=
  Prog.perform (AccountOp.getTransaction eventId)

/-- `db.insert_transaction(tx)`. -/
def insertTransaction (tx : StoredTransaction) : AccountProg Bool :=
  Prog.perform (AccountOp.insertTransaction tx)

/-- `datetime.now(tz=utc)`. -/
def now : AccountProg DateTime := Prog.perform AccountOp.now

/-- `tracing.get_trace_id()`. -/
def traceId : AccountProg (Option String) := Prog.perform AccountOp.traceId

/-- `audit.record("TRANSACTION_APPLY", outcome, …)`. -/
def audit (outcome accountId eventId : String) (detail : List (String × Json)) : AccountProg Unit :=
  Prog.perform (AccountOp.audit outcome accountId eventId detail)

end AccountProg

/-- What the Account Service answers to a `POST`. -/
inductive AccountAnswer where
  /-- `apply_transaction` returned. -/
  | transaction (status : ℕ) (response : TransactionResponse)
  /-- The body failed validation. -/
  | validationError
  /-- No `POST` route matched. -/
  | unmatched (refusal : Refusal)
  /-- An unhandled exception. -/
  | internalError (traceId : Option String)

open AccountProg in
/-- `apply_transaction`. -/
def applyTransaction (accountId : String) (body : TransactionRequest) :
    AccountProg AccountAnswer := do
  match ← getTransaction body.eventId with
  | some existing =>
    -- Idempotent replay: return the originally stored transaction.
    audit "DUPLICATE" accountId body.eventId []
    return .transaction 200 (existing.toResponse true)
  | none =>
    match body.stored accountId (← now) with
    | none => return .internalError (← traceId)
    | some tx =>
      if ← insertTransaction tx then
        audit "APPLIED" accountId tx.eventId
          [("type", .str tx.type.value), ("amount", .str tx.amount), ("currency", .str tx.currency)]
        return .transaction 201 (tx.toResponse false)
      else
        -- Lost an insert race: fetch and return the winner idempotently.
        let existing ← getTransaction body.eventId
        audit "DUPLICATE" accountId body.eventId []
        match existing with
        | some winner => return .transaction 200 (winner.toResponse true)
        | none => return .internalError (← traceId)

open AccountProg in
/-- What becomes of a request for account path segment `accountId` with body `payload`. -/
def serve (accountId : String) (payload : TxPayload) : AccountProg AccountAnswer :=
  match accountRoute accountId with
  | .account routed =>
    match TransactionRequest.validate payload with
    | some body => applyTransaction routed body
    | none => return .validationError
  | .unmatched refusal => return .unmatched refusal
  | .invalidUrl => do return .internalError (← traceId)

/-! ## On the wire -/

/-- A response body, by what the client's `resp.json()` makes of it. -/
inductive Body where
  /-- A value. -/
  | json (value : Json)
  /-- A value that cannot be sent on, since no JSON text is made of it: a lone surrogate is among
  its strings, or it is nested too deep. -/
  | unencodable
  /-- A `ValueError`; this is the body's text. -/
  | text (s : String)
  /-- A `ValueError`, and the body's text cannot be sent on either: it is decoded by a charset that
  makes lone surrogates, such as `unicode_escape`. -/
  | unencodableText
  /-- Another exception, such as the `RecursionError` of JSON that is nested too deep to be
  read. -/
  | undecodable

/-- An HTTP response. -/
structure HttpResponse where
  status : ℕ
  body : Body

/-- `resp.json()` raises. -/
def HttpResponse.jsonRaises (resp : HttpResponse) : Bool :=
  match resp.body with
  | .text _ => true
  | .unencodableText => true
  | .undecodable => true
  | _ => false

/-- The structured 500 of `install_error_handlers`. -/
def internalErrorBody (traceId : Option String) : Json :=
  .obj [("error", .str "internal_error"), ("message", .str "An unexpected error occurred."),
    ("trace_id", traceId.elim .null .str)]

/-- The response an answer is sent as.  A redirect has an empty body; `validationDetail` is what
the framework reports about an invalid payload. -/
def AccountAnswer.toHttp (validationDetail : Json) : AccountAnswer → HttpResponse
  | .transaction status response => ⟨status, .json response.toJson⟩
  | .validationError => ⟨422, .json (.obj [("detail", validationDetail)])⟩
  | .unmatched .methodNotAllowed => ⟨405, .json (.obj [("detail", .str "Method Not Allowed")])⟩
  | .unmatched .redirectSlashes => ⟨307, .text ""⟩
  | .unmatched .notFound => ⟨404, .json (.obj [("detail", .str "Not Found")])⟩
  | .internalError traceId => ⟨500, .json (internalErrorBody traceId)⟩

/-- Only `apply_transaction` answers below 400 with JSON. -/
theorem AccountAnswer.transaction_of_accepted {detail : Json} {answer : AccountAnswer}
    (hstatus : (answer.toHttp detail).status < 400)
    (hjson : (answer.toHttp detail).jsonRaises = false) :
    ∃ status response, answer = .transaction status response := by
  cases answer with
  | transaction status response => exact ⟨status, response, rfl⟩
  | validationError => exact absurd hstatus (by simp [toHttp])
  | unmatched refusal =>
    cases refusal with
    | methodNotAllowed => exact absurd hstatus (by simp [toHttp])
    | redirectSlashes => cases hjson
    | notFound => exact absurd hstatus (by simp [toHttp])
  | internalError traceId => exact absurd hstatus (by simp [toHttp])

end EventLedger
