import EventLedger.Audit
import EventLedger.KeyedTable
import EventLedger.Models
import Mathlib.Data.List.Sort
import Mathlib.Data.String.Basic

/-!
# The two databases

`AccountDB` owns the `transactions` table, `GatewayDB` the `events` table, each
with `event_id` as its primary key and an audit log beside it.  Every method of
the source holds the database lock throughout, so each is one step here.

A listing is in the order of two text columns, and rows that agree in both stay in
the order they were inserted in (`orderedBy`).  The columns are text, as SQLite has
them, and text is what they are compared as; what that means in time is
`Chronology`.
-/
namespace EventLedger

open DecimalFloat KeyedTable

/-! ## Orders of listings -/

/-- `ORDER BY first ASC, second ASC`. -/
def orderedBy {ρ : Type} (first second : ρ → String) (a b : ρ) : Prop :=
  first a < first b ∨ (first a = first b ∧ second a ≤ second b)

section
variable {ρ : Type} (first second : ρ → String)

instance : DecidableRel (orderedBy first second) :=
  fun _ _ => inferInstanceAs (Decidable (_ ∨ _))

instance : Std.Total (orderedBy first second) where
  total a b := by
    unfold orderedBy
    rcases lt_trichotomy (first a) (first b) with h | h | h
    · exact Or.inl (Or.inl h)
    · rcases le_total (second a) (second b) with h' | h'
      · exact Or.inl (Or.inr ⟨h, h'⟩)
      · exact Or.inr (Or.inr ⟨h.symm, h'⟩)
    · exact Or.inr (Or.inl h)

instance : IsTrans ρ (orderedBy first second) where
  trans a b c := by
    rintro (hab | ⟨hab, hab'⟩) (hbc | ⟨hbc, hbc'⟩)
    · exact Or.inl (hab.trans hbc)
    · exact Or.inl (hbc ▸ hab)
    · exact Or.inl (hab ▸ hbc)
    · exact Or.inr ⟨hab.trans hbc, hab'.trans hbc'⟩

end

/-! ## The Account Service's database -/

/-- `AccountDB`. -/
structure AccountDB where
  transactions : Table StoredTransaction.eventId
  auditLog : List AuditRow

namespace AccountDB

/-- A freshly created database. -/
def new : AccountDB := ⟨Table.empty, []⟩

/-- `get_transaction`. -/
def getTransaction (db : AccountDB) (eventId : String) : Option StoredTransaction :=
  db.transactions.get eventId

/-- `insert_transaction`: the new database, or `none` when the primary key is taken. -/
def insertTransaction (db : AccountDB) (tx : StoredTransaction) : Option AccountDB :=
  (db.transactions.insert tx).map fun transactions => { db with transactions := transactions }

/-- `append_audit`. -/
def appendAudit (db : AccountDB) (entry : AuditEntry) : AccountDB :=
  { db with auditLog := EventLedger.appendAudit db.auditLog entry }

end AccountDB

/-- `ORDER BY event_timestamp ASC, created_at ASC`. -/
abbrev StoredTransaction.listedBefore : StoredTransaction → StoredTransaction → Prop :=
  orderedBy StoredTransaction.eventTimestamp StoredTransaction.createdAt

/-- `list_transactions`: an account's rows, rows that compare equal in insertion order. -/
def AccountDB.listTransactions (db : AccountDB) (accountId : String) : List StoredTransaction :=
  (db.transactions.rows.filter (·.accountId = accountId)).insertionSort
    StoredTransaction.listedBefore

/-- The rows of an account. -/
def AccountDB.rowsOf (db : AccountDB) (accountId : String) : List StoredTransaction :=
  db.transactions.rows.filter (·.accountId = accountId)

/-! ## The Gateway's database -/

/-- `GatewayDB`. -/
structure GatewayDB where
  events : Table StoredEvent.eventId
  auditLog : List AuditRow

namespace GatewayDB

/-- A freshly created database. -/
def new : GatewayDB := ⟨Table.empty, []⟩

/-- `get_event`. -/
def getEvent (db : GatewayDB) (eventId : String) : Option StoredEvent :=
  db.events.get eventId

/-- `insert_event`: the new database, or `none` when the primary key is taken. -/
def insertEvent (db : GatewayDB) (event : StoredEvent) : Option GatewayDB :=
  (db.events.insert event).map fun events => { db with events := events }

/-- `append_audit`. -/
def appendAudit (db : GatewayDB) (entry : AuditEntry) : GatewayDB :=
  { db with auditLog := EventLedger.appendAudit db.auditLog entry }

end GatewayDB

/-- The rows of an account. -/
def GatewayDB.rowsOf (db : GatewayDB) (accountId : String) : List StoredEvent :=
  db.events.rows.filter (·.accountId = accountId)

/-- `list_events`: an account's rows, rows that compare equal in insertion order. -/
def GatewayDB.listEvents (db : GatewayDB) (accountId : String) : List StoredEvent :=
  (db.rowsOf accountId).insertionSort
    (orderedBy StoredEvent.eventTimestamp StoredEvent.receivedAt)

end EventLedger
