import EventLedger.DateTime
import EventLedger.Json

/-!
# The audit trail

Both services keep an append-only `audit_log` in their own database.  A row gets
the next id when it is appended and is never touched again; `list_audit` reads the
rows back, the newest first.

An entry is about an action and its outcome, and has the time and the trace id of the
span it was recorded in, which `AuditTrail.record` reads from its surroundings.  Here
appending cannot fail; that it can over the real connection, and that the trail
swallows what it raises, is `SharedConnection`, and the second copy of an entry in the
log stream is `AuditLines`.
-/
namespace EventLedger

/-- `AuditEntry`. -/
structure AuditEntry where
  timestamp : String
  service : String
  action : String
  outcome : String
  accountId : Option String
  eventId : Option String
  traceId : Option String
  detail : List (String × Json)

/-- A row of `audit_log`. -/
structure AuditRow where
  id : ℕ
  timestamp : String
  service : String
  action : String
  outcome : String
  accountId : Option String
  eventId : Option String
  traceId : Option String
  detailJson : Option String
  deriving DecidableEq, Repr

/-- What a service reads from its surroundings: the UTC clock and the current trace id. -/
structure Surroundings where
  now : DateTime
  traceId : Option String
  deriving DecidableEq

/-- The entry `AuditTrail.record` builds; its sink is `appendAudit`. -/
def AuditTrail.entry (service : String) (env : Surroundings) (action outcome : String)
    (accountId eventId : Option String) (detail : List (String × Json)) : AuditEntry :=
  { timestamp := env.now.isoformat, service := service, action := action, outcome := outcome,
    accountId := accountId, eventId := eventId, traceId := env.traceId, detail := detail }

/-- `append_audit`: ids count up from one, and an empty detail is stored as `NULL`. -/
def appendAudit (log : List AuditRow) (entry : AuditEntry) : List AuditRow :=
  log ++ [{ id := log.length + 1, timestamp := entry.timestamp, service := entry.service,
            action := entry.action, outcome := entry.outcome, accountId := entry.accountId,
            eventId := entry.eventId, traceId := entry.traceId,
            detailJson :=
              if entry.detail.isEmpty then none else some (Json.dumps (.obj entry.detail)) }]

/-- What is selected of a log, after one more row. -/
theorem selected_concat {α : Type} {p : AuditRow → Prop} [DecidablePred p] {f : AuditRow → α}
    (row : AuditRow) : ((log ++ [row]).filter (p ·)).map f =
      (log.filter (p ·)).map f ++ if p row then [f row] else [] := by
  rw [List.filter_append, List.map_append]
  by_cases h : p row
  · rw [if_pos h, List.filter_cons_of_pos (by simpa using h)]
    rfl
  · rw [if_neg h, List.filter_cons_of_neg (by simpa using h)]
    rfl

/-- A Python integer as a parameter of a statement; `none` is the exception for one that has more
than 64 bits. -/
def sqliteInteger (n : ℤ) : Option ℤ := if -2 ^ 63 ≤ n ∧ n < 2 ^ 63 then some n else none

/-- The rows `list_audit` selects: the newest entries first, of one account or of all; SQLite reads
a negative limit as none. -/
def listAudit (log : List AuditRow) (accountId : Option String) (limit : ℤ) :
    Option (List AuditRow) := do
  let limit ← sqliteInteger limit
  let rows := (log.filter fun row => accountId.all fun a => row.accountId = some a).reverse
  return if limit < 0 then rows else rows.take limit.toNat

end EventLedger
