import EventLedger.AccountService
import EventLedger.Balance
import EventLedger.ServiceRuns

/-!
# The Account Service as a service

All endpoints of the Account Service as programs over its database: a balance
takes two reads, the listing and the sum over it, each under the lock but not
both.  `accountService` runs any number of requests to them, interleaved.

A step either lets a request arrive or performs the next operation of one of the
handlers, whichever it is; what a handler reads from outside its database — the
clock, the span's trace id, whether the database answers a ping, the metrics — comes
with the step.  A sum that leaves the decimal range raises, and ends in the handler
for unhandled exceptions.
-/
namespace EventLedger

open Program DecimalFloat

/-- One operation of a handler: one of `apply_transaction`'s, or a read. -/
inductive AccountApiOp where
  | core (op : AccountOp)
  | listTransactions (accountId : String)
  | balance (accountId : String)
  | listAudit (accountId : Option String) (limit : ℤ)
  | ping
  | metrics

/-- What each operation returns. -/
@[reducible] def AccountApiOp.Ret : AccountApiOp → Type
  | .core op => op.Ret
  | .listTransactions _ => List StoredTransaction
  | .balance _ => Option Decimal
  | .listAudit _ _ => Option (List AuditRow)
  | .ping => Bool
  | .metrics => Json × String

/-- A handler of the Account Service. -/
abbrev AccountApiProg := Prog AccountApiOp AccountApiOp.Ret

namespace AccountApiProg

/-- A program over `apply_transaction`'s operations. -/
def inCore {α : Type} (p : AccountProg α) : AccountApiProg α :=
  p.interpret fun op => Prog.perform (AccountApiOp.core op)

/-- `db.list_transactions(account_id)`. -/
def listTransactions (accountId : String) : AccountApiProg (List StoredTransaction) :=
  Prog.perform (AccountApiOp.listTransactions accountId)

/-- `db.balance(account_id)`; `none` is a decimal exception. -/
def balance (accountId : String) : AccountApiProg (Option Decimal) :=
  Prog.perform (AccountApiOp.balance accountId)

/-- `db.list_audit(account, limit)`; `none` is an exception. -/
def auditEntries (accountId : Option String) (limit : ℤ) :
    AccountApiProg (Option (List AuditRow)) :=
  Prog.perform (AccountApiOp.listAudit accountId limit)

/-- `db.ping()`. -/
def ping : AccountApiProg Bool := Prog.perform AccountApiOp.ping

/-- `metrics.snapshot()` and `metrics.render()`. -/
def metrics : AccountApiProg (Json × String) := Prog.perform AccountApiOp.metrics

/-- `tracing.get_trace_id()`. -/
def traceId : AccountApiProg (Option String) :=
  Prog.perform (AccountApiOp.core AccountOp.traceId)

end AccountApiProg

/-- A request to the Account Service. -/
inductive AccountRequest where
  | post (accountId : String) (payload : TxPayload)
  /-- A `POST` whose body is no payload at all. -/
  | malformed
  | balance (accountId : String)
  | account (accountId : String)
  | health
  | metrics
  | audit (account : Option String) (limit : ℤ)
  deriving DecidableEq

/-- What the Account Service answers. -/
inductive AccountReply where
  | posted (answer : AccountAnswer)
  | balance (response : BalanceResponse)
  | account (response : AccountDetailResponse)
  | health (databaseOk : Bool) (snapshot : Json)
  | metrics (text : String)
  | audit (entries : List AuditRow)
  /-- An unhandled exception. -/
  | internalError (traceId : Option String)

open AccountApiProg

/-- `get_balance`. -/
def getBalanceHandler (accountId : String) : AccountApiProg AccountReply := do
  let txs ← listTransactions accountId
  match ← balance accountId with
  | some total => return .balance (balanceResponse accountId txs total)
  | none => return .internalError (← traceId)

/-- `get_account`. -/
def getAccountHandler (accountId : String) : AccountApiProg AccountReply := do
  let txs ← listTransactions accountId
  match ← balance accountId with
  | some total => return .account (accountDetail accountId txs total)
  | none => return .internalError (← traceId)

/-- What becomes of a request. -/
def handleAccount : AccountRequest → AccountApiProg AccountReply
  | .post accountId payload => do return .posted (← inCore (serve accountId payload))
  | .malformed => return .posted .validationError
  | .balance accountId => getBalanceHandler accountId
  | .account accountId => getAccountHandler accountId
  | .health => do
    let databaseOk ← ping
    return .health databaseOk (← metrics).1
  | .metrics => do return .metrics (← metrics).2
  | .audit account limit => do
    match ← auditEntries account limit with
    | some entries => return .audit entries
    | none => return .internalError (← traceId)

/-! ## Running -/

/-- What a handler reads from outside its database. -/
structure AccountEnv where
  surroundings : Surroundings
  reachable : Bool
  metrics : Json × String

/-- One operation of `apply_transaction` on the database. -/
def accountDbExec (env : Surroundings) (db : AccountDB) : (o : AccountOp) → AccountDB × o.Ret
  | .getTransaction eventId => (db, db.getTransaction eventId)
  | .insertTransaction tx =>
    match db.insertTransaction tx with
    | some db' => (db', true)
    | none => (db, false)
  | .now => (db, env.now)
  | .traceId => (db, env.traceId)
  | .audit outcome accountId eventId detail =>
    (db.appendAudit (AuditTrail.entry "account-service" env "TRANSACTION_APPLY" outcome
      (some accountId) (some eventId) detail), ())

/-- One operation of a handler. -/
def accountApiExec (env : AccountEnv) (db : AccountDB) :
    (o : AccountApiOp) → Option (AccountDB × o.Ret)
  | .core op => some (accountDbExec env.surroundings db op)
  | .listTransactions accountId => some (db, db.listTransactions accountId)
  | .balance accountId => some (db, db.balance accountId)
  | .listAudit accountId limit => some (db, listAudit db.auditLog accountId limit)
  | .ping => some (db, env.reachable)
  | .metrics => some (db, env.metrics)

/-- The Account Service. -/
def accountService :
    Service AccountRequest AccountApiOp AccountApiOp.Ret AccountReply AccountDB AccountEnv where
  handle := handleAccount
  exec := accountApiExec

/-- An insert adds its row, or the key is taken and nothing changes. -/
theorem accountApiExec_insert {env : AccountEnv} {db db' : AccountDB} {tx : StoredTransaction}
    {created : Bool}
    (h : accountApiExec env db (.core (.insertTransaction tx)) = some (db', created)) :
    (created = true ∧ db'.transactions.rows = db.transactions.rows ++ [tx] ∧
      db'.auditLog = db.auditLog) ∨ (created = false ∧ db' = db) := by
  simp only [accountApiExec, accountDbExec, Option.some.injEq] at h
  cases hinsert : db.insertTransaction tx with
  | some db'' =>
    rw [hinsert] at h
    cases h
    obtain ⟨table, htable, rfl⟩ := Option.map_eq_some_iff.mp hinsert
    exact Or.inl ⟨rfl, KeyedTable.Table.rows_insert htable, rfl⟩
  | none =>
    rw [hinsert] at h
    cases h
    exact Or.inr ⟨rfl, rfl⟩

/-- The entry an operation appends to the log. -/
def AccountApiOp.entry (env : AccountEnv) : AccountApiOp → Option AuditEntry
  | .core (.audit outcome accountId eventId detail) =>
    some (AuditTrail.entry "account-service" env.surroundings "TRANSACTION_APPLY" outcome
      (some accountId) (some eventId) detail)
  | _ => none

theorem accountApiExec_log {env : AccountEnv} {db db' : AccountDB} {o : AccountApiOp} {r : o.Ret}
    (h : accountApiExec env db o = some (db', r)) :
    db'.auditLog = (o.entry env).elim db.auditLog (appendAudit db.auditLog) := by
  cases o with
  | core op =>
    cases op with
    | insertTransaction tx =>
      rcases accountApiExec_insert h with ⟨-, -, hlog⟩ | ⟨-, rfl⟩
      · exact hlog
      · rfl
    | _ =>
      cases h
      rfl
  | _ =>
    cases h
    rfl

/-- A state of the Account Service. -/
abbrev AccountState :=
  Service.State AccountRequest AccountApiOp AccountApiOp.Ret AccountReply AccountDB

/-- A step of the Account Service. -/
abbrev AccountLabel := Service.Label AccountRequest AccountEnv

/-- Surroundings in which the clock stands still. -/
def sampleEnv : AccountEnv := ⟨⟨sampleTimestamp, none⟩, true, (.null, "")⟩

/-! ## What the endpoints take over from `apply_transaction` -/

/-- An event of `apply_transaction`'s, as the service sees it. -/
def inAccountApi (e : Event AccountOp AccountOp.Ret) : Event AccountApiOp AccountApiOp.Ret :=
  ⟨.core e.1, e.2⟩

section
variable {α : Type} {p : AccountProg α}

theorem AccountApiProg.core_keeps (op : AccountOp)
    (J : List (Event AccountApiOp AccountApiOp.Ret) → Prop)
    (Q : op.Ret → List (Event AccountApiOp AccountApiOp.Ret) → Prop) (hJ : J [])
    (hQ : ∀ r, J [inAccountApi ⟨op, r⟩] ∧ Q r [inAccountApi ⟨op, r⟩]) :
    (Prog.perform (AccountApiOp.core op) : AccountApiProg op.Ret).Keeps J Q :=
  Prog.keeps_act.mpr ⟨hJ, fun r => Prog.keeps_done.mpr (hQ r)⟩

theorem AccountApiProg.inCore_ensures {Post : α → List (Event AccountOp AccountOp.Ret) → Prop}
    (h : p.Ensures Post) :
    (inCore p).Ensures fun a es' => ∃ es, es' = List.map inAccountApi es ∧ Post a es :=
  (Prog.Keeps.interpret_map core_keeps h).mono (fun _ _ => trivial) fun _ _ _ hPost => hPost

theorem AccountApiProg.inCore_matches {γ : Type}
    {f g : Event AccountApiOp AccountApiOp.Ret → List γ}
    (h : p.Matches (f ∘ inAccountApi) (g ∘ inAccountApi)) : (inCore p).Matches f g :=
  Prog.Matches.interpret_map core_keeps h

end

end EventLedger
