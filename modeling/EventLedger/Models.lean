import EventLedger.DateTime
import EventLedger.DecimalText
import EventLedger.Json

/-!
# The API contract and the stored rows of both services

Request bodies carry the proof that they passed their field validators, so a
handler never sees an invalid one.  Stored rows and responses are plain records
of text, as the databases and the wire have them; `amountStr` is the canonical
text both services give an amount.

Of the wire forms a validator accepts, the payload of a forwarded transaction is the
one the Gateway itself sends: text for the amount and the timestamp.  A response shows
its metadata as the framework serialises it (`EventResponse.shown`), and whether that
is possible at all depends on how deep the metadata is nested, which is a parameter.
-/
namespace EventLedger

open DecimalFloat

/-- `decimal`'s default context. -/
def defaultContext : Context where
  prec := 28
  emin := -999999
  emax := 999999
  prec_pos := by decide
  range := by decide

/-- `format(Decimal(amount).normalize(), "f")`; `none` when the context overflows. -/
def amountStr (amount : Decimal) : Option String := canonical defaultContext amount

/-- `TxType`. -/
inductive TxType where
  | credit
  | debit
  deriving DecidableEq, Repr

/-- The literal on the wire and in the tables. -/
def TxType.value : TxType → String
  | .credit => "CREDIT"
  | .debit => "DEBIT"

/-! ## The Gateway's contract -/

/-- `str.isspace()` of one character. -/
def isSpace (c : Char) : Bool :=
  let n := c.toNat
  (9 ≤ n ∧ n ≤ 13) || (28 ≤ n ∧ n ≤ 32) || n = 0x85 || n = 0xA0 || n = 0x1680 ||
    (0x2000 ≤ n ∧ n ≤ 0x200A) || n = 0x2028 || n = 0x2029 || n = 0x202F || n = 0x205F || n = 0x3000

/-- `str.strip()`. -/
def strip (s : String) : String :=
  String.ofList ((s.toList.dropWhile isSpace).reverse.dropWhile isSpace).reverse

/-- `EventRequest._strip_nonempty`. -/
def stripNonempty (v : String) : Option String :=
  if strip v = "" then none else some (strip v)

/-- The payload of `POST /events` after validation. -/
structure EventRequest where
  eventId : String
  accountId : String
  type : TxType
  amount : Decimal
  currency : String
  eventTimestamp : DateTime
  metadata : Option (List (String × Json))
  eventId_stripped : ∃ v, stripNonempty v = some eventId
  accountId_stripped : ∃ v, stripNonempty v = some accountId
  currency_stripped : ∃ v, stripNonempty v = some currency
  amount_positive : amount.Positive

/-- The documented sample submission. -/
def sampleEvent : EventRequest where
  eventId := "evt-001"
  accountId := "acct-123"
  type := .credit
  amount := ⟨false, 15000, -2⟩
  currency := "USD"
  eventTimestamp := sampleTimestamp
  metadata := none
  eventId_stripped := ⟨"evt-001", by decide⟩
  accountId_stripped := ⟨" acct-123 ", by decide⟩
  currency_stripped := ⟨"USD", by decide⟩
  amount_positive := by decide

/-- A row of the `events` table. -/
structure StoredEvent where
  eventId : String
  accountId : String
  type : TxType
  amount : String
  currency : String
  eventTimestamp : String
  metadataJson : Option String
  receivedAt : String
  deriving DecidableEq, Repr

/-- The row `submit_event` builds from a body and its canonical amount. -/
def EventRequest.stored (body : EventRequest) (amount : String) (now : DateTime) : StoredEvent where
  eventId := body.eventId
  accountId := body.accountId
  type := body.type
  amount := amount
  currency := body.currency
  eventTimestamp := body.eventTimestamp.isoformat
  metadataJson := match body.metadata with
    | none => none
    | some fields => if fields.isEmpty then none else some (Json.dumps (.obj fields))
  receivedAt := now.isoformat

/-- What a client is told about an event. -/
structure EventResponse where
  eventId : String
  accountId : String
  type : TxType
  amount : String
  currency : String
  eventTimestamp : String
  metadata : Option (List (String × Json))
  receivedAt : String
  duplicate : Bool

/-- The `metadata` a stored text reads back as; `none` is a text that is no JSON object. -/
def readMetadata (loads : String → Option Json) :
    Option String → Option (Option (List (String × Json)))
  | none => some none
  | some text =>
    if text = "" then some none
    else match loads text with
      | some (.obj fields) => some (some fields)
      | some .null => some none
      | _ => none

/-- `StoredEvent.to_response`; `none` is the exception of unreadable metadata. -/
def StoredEvent.toResponse (loads : String → Option Json) (e : StoredEvent) (duplicate : Bool) :
    Option EventResponse :=
  (readMetadata loads e.metadataJson).map fun metadata =>
    { eventId := e.eventId, accountId := e.accountId, type := e.type, amount := e.amount,
      currency := e.currency, eventTimestamp := e.eventTimestamp, metadata := metadata,
      receivedAt := e.receivedAt, duplicate := duplicate }

theorem StoredEvent.toResponse_fields {loads : String → Option Json} {e : StoredEvent}
    {duplicate : Bool} {response : EventResponse}
    (h : e.toResponse loads duplicate = some response) :
    response.eventId = e.eventId ∧ response.accountId = e.accountId ∧ response.type = e.type ∧
      response.amount = e.amount ∧ response.currency = e.currency ∧
      response.eventTimestamp = e.eventTimestamp ∧ response.duplicate = duplicate := by
  obtain ⟨metadata, -, rfl⟩ := Option.map_eq_some_iff.mp h
  exact ⟨rfl, rfl, rfl, rfl, rfl, rfl, rfl⟩

/-! ## The Account Service's contract -/

/-- The body the Gateway forwards, as it is on the wire. -/
structure TxPayload where
  eventId : String
  type : TxType
  amount : String
  currency : String
  eventTimestamp : String
  deriving DecidableEq, Repr

/-- The payload `submit_event` forwards, `tx_payload`. -/
def EventRequest.payload (body : EventRequest) (amount : String) : TxPayload where
  eventId := body.eventId
  type := body.type
  amount := amount
  currency := body.currency
  eventTimestamp := body.eventTimestamp.isoformat

/-- Body of `POST /accounts/{accountId}/transactions` after validation. -/
structure TransactionRequest where
  eventId : String
  type : TxType
  amount : Decimal
  currency : String
  eventTimestamp : DateTime
  eventId_nonempty : eventId ≠ ""
  currency_nonempty : currency ≠ ""
  amount_positive : amount.Positive

/-- Validating a payload; `none` is the 422 answer. -/
def TransactionRequest.validate (p : TxPayload) : Option TransactionRequest := do
  let amount ← parse p.amount
  let eventTimestamp ← fromIsoformat p.eventTimestamp
  if h : p.eventId ≠ "" ∧ p.currency ≠ "" ∧ amount.Positive then
    some { eventId := p.eventId, type := p.type, amount := amount, currency := p.currency,
           eventTimestamp := eventTimestamp, eventId_nonempty := h.1,
           currency_nonempty := h.2.1, amount_positive := h.2.2 }
  else none

/-- A row of the `transactions` table. -/
structure StoredTransaction where
  eventId : String
  accountId : String
  type : TxType
  amount : String
  currency : String
  eventTimestamp : String
  createdAt : String
  deriving DecidableEq, Repr

/-- The row `apply_transaction` builds from a body; `none` when the amount overflows. -/
def TransactionRequest.stored (body : TransactionRequest) (accountId : String) (now : DateTime) :
    Option StoredTransaction :=
  (amountStr body.amount).map fun amount =>
    { eventId := body.eventId, accountId := accountId, type := body.type, amount := amount,
      currency := body.currency, eventTimestamp := body.eventTimestamp.isoformat,
      createdAt := now.isoformat }

theorem TransactionRequest.validate_fields {p : TxPayload} {body : TransactionRequest}
    (h : TransactionRequest.validate p = some body) :
    body.eventId = p.eventId ∧ body.type = p.type ∧ body.currency = p.currency ∧
      parse p.amount = some body.amount ∧
      fromIsoformat p.eventTimestamp = some body.eventTimestamp := by
  unfold TransactionRequest.validate at h
  obtain ⟨amount, hamount, h⟩ := Option.bind_eq_some_iff.mp h
  obtain ⟨timestamp, htimestamp, h⟩ := Option.bind_eq_some_iff.mp h
  split at h
  · cases h
    exact ⟨rfl, rfl, rfl, hamount, htimestamp⟩
  · cases h

theorem TransactionRequest.stored_eventId {body : TransactionRequest} {accountId : String}
    {now : DateTime} {tx : StoredTransaction} (h : body.stored accountId now = some tx) :
    tx.eventId = body.eventId := by
  obtain ⟨amount, -, rfl⟩ := Option.map_eq_some_iff.mp h
  rfl

/-- What the Account Service answers about a transaction. -/
structure TransactionResponse where
  eventId : String
  accountId : String
  type : TxType
  amount : String
  currency : String
  eventTimestamp : String
  createdAt : String
  duplicate : Bool
  deriving DecidableEq, Repr

/-- `StoredTransaction.to_response`. -/
def StoredTransaction.toResponse (tx : StoredTransaction) (duplicate : Bool) :
    TransactionResponse :=
  { eventId := tx.eventId, accountId := tx.accountId, type := tx.type, amount := tx.amount,
    currency := tx.currency, eventTimestamp := tx.eventTimestamp, createdAt := tx.createdAt,
    duplicate := duplicate }

/-- The response as it is serialised. -/
def TransactionResponse.toJson (r : TransactionResponse) : Json :=
  .obj [("eventId", .str r.eventId), ("accountId", .str r.accountId), ("type", .str r.type.value),
    ("amount", .str r.amount), ("currency", .str r.currency),
    ("eventTimestamp", .str r.eventTimestamp), ("createdAt", .str r.createdAt),
    ("duplicate", .bool r.duplicate)]

/-- `BalanceResponse`. -/
structure BalanceResponse where
  accountId : String
  balance : String
  currency : Option String
  transactionCount : ℕ
  deriving DecidableEq, Repr

/-- `AccountDetailResponse`. -/
structure AccountDetailResponse where
  accountId : String
  balance : String
  currency : Option String
  transactionCount : ℕ
  recentTransactions : List TransactionResponse
  deriving DecidableEq, Repr

end EventLedger
