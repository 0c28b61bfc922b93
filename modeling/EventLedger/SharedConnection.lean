import EventLedger.Balance
import EventLedger.LabelledRun

/-!
# One connection, one transaction

All operations of a database share one connection, and so one implicit
transaction: a statement that writes opens it, `commit` ends it, and until then
what was written can be read but is not saved.  Only an `IntegrityError` rolls
it back.  Here every statement may fail as well, with an error that leaves the
transaction open.

`FailedWritesLeaveNothing` is what the callers rely on: an insert that raised
left nothing behind, and a row once reported stays.  It holds of a run exactly
if no commit of an inserted row fails in it (`failed_writes_iff`); a row whose
commit failed is there to be read, and goes with the next rollback.
-/
namespace EventLedger

open KeyedTable LabelledRun

/-- The table a service keeps beside its audit log, and how an account's rows are listed. -/
structure Schema where
  Row : Type
  key : Row → String
  listing : List Row → String → List Row

variable {S : Schema}

/-- The contents of a database. -/
structure Contents (S : Schema) where
  table : Table S.key
  auditLog : List AuditRow

/-- The connection: what is saved, and what its statements see. -/
structure Connection (S : Schema) where
  saved : Contents S
  visible : Contents S

/-- Which statement fails, with an error other than `IntegrityError`. -/
inductive Failure where
  | insert
  | commit
  deriving DecidableEq

/-- One locked operation on the database, and the failure it meets. -/
inductive MethodCall (S : Schema) where
  | get (eventId : String)
  | list (accountId : String)
  | insert (row : S.Row) (failure : Option Failure)
  | appendAudit (entry : AuditEntry) (failure : Option Failure)

/-- What an operation returns. -/
inductive Reply (S : Schema) where
  | row (found : Option S.Row)
  | rows (listed : List S.Row)
  | inserted (created : Bool)
  | appended
  | raised

namespace Connection

/-- A connection with nothing pending. -/
def opened (contents : Contents S) : Connection S := ⟨contents, contents⟩

/-- `conn.commit()`. -/
def commit (c : Connection S) : Connection S := { c with saved := c.visible }

/-- `conn.rollback()`. -/
def rollback (c : Connection S) : Connection S := { c with visible := c.saved }

/-- `insert_transaction` and `insert_event`: only a taken key is rolled back. -/
def insertRow (c : Connection S) (row : S.Row) (failure : Option Failure) :
    Connection S × Reply S :=
  if failure = some .insert then (c, .raised)
  else match c.visible.table.insert row with
    | none => (c.rollback, .inserted false)
    | some table =>
      let c' : Connection S := { c with visible := { c.visible with table := table } }
      if failure = some .commit then (c', .raised) else (c'.commit, .inserted true)

/-- `append_audit`. -/
def appendAudit (c : Connection S) (entry : AuditEntry) (failure : Option Failure) :
    Connection S × Reply S :=
  if failure = some .insert then (c, .raised)
  else
    let c' : Connection S :=
      { c with visible :=
          { c.visible with auditLog := EventLedger.appendAudit c.visible.auditLog entry } }
    if failure = some .commit then (c', .raised) else (c'.commit, .appended)

/-- One operation. -/
def exec (c : Connection S) : MethodCall S → Connection S × Reply S
  | .get eventId => (c, .row (c.visible.table.get eventId))
  | .list accountId => (c, .rows (S.listing c.visible.table.rows accountId))
  | .insert row failure => c.insertRow row failure
  | .appendAudit entry failure => c.appendAudit entry failure

/-- The connection after an operation. -/
def step (c : Connection S) (call : MethodCall S) : Option (Connection S) := some (c.exec call).1

/-- The connection after a sequence of operations. -/
def after (c : Connection S) (calls : List (MethodCall S)) : Connection S :=
  calls.foldl (fun c call => (c.exec call).1) c

@[simp] theorem after_nil (c : Connection S) : c.after [] = c := rfl

@[simp] theorem after_cons (c : Connection S) (call : MethodCall S) (calls : List (MethodCall S)) :
    c.after (call :: calls) = (c.exec call).1.after calls := rfl

theorem after_append (c : Connection S) (calls calls' : List (MethodCall S)) :
    c.after (calls ++ calls') = (c.after calls).after calls' := List.foldl_append

end Connection

/-! ## What callers rely on -/

/-- The operation tells its caller that the row is stored. -/
def MethodCall.Reports (call : MethodCall S) (reply : Reply S) (row : S.Row) : Prop :=
  reply = .row (some row) ∨ ((∃ failure, call = .insert row failure) ∧ reply = .inserted true)

/-- A row whose insert raised, and that is not inserted again, is not left behind: no later
operation sees it or saves it. -/
def RaisedLeavesNothing (c : Connection S) (calls : List (MethodCall S)) : Prop :=
  ∀ done row failure later rest, calls = done ++ .insert row failure :: (later ++ rest) →
    ((c.after done).exec (.insert row failure)).2 = .raised →
    row ∉ (c.after done).visible.table.rows →
    (∀ failure', .insert row failure' ∉ later) →
    row ∉ (c.after (done ++ .insert row failure :: later)).visible.table.rows ∧
      row ∉ (c.after (done ++ .insert row failure :: later)).saved.table.rows

/-- A row that an operation reported is not removed by a later one. -/
def ReportedStays (c : Connection S) (calls : List (MethodCall S)) : Prop :=
  ∀ done call later rest row, calls = done ++ call :: (later ++ rest) →
    call.Reports ((c.after done).exec call).2 row →
    row ∈ (c.after (done ++ call :: later)).visible.table.rows

/-- A failed write leaves the store as it was, in every state of a run. -/
structure FailedWritesLeaveNothing (c : Connection S) (calls : List (MethodCall S)) : Prop where
  raised : RaisedLeavesNothing c calls
  reported : ReportedStays c calls

/-- The operation inserts a row and fails to commit it. -/
def CommitFails (c : Connection S) (call : MethodCall S) : Prop :=
  ∃ row, call = .insert row (some .commit) ∧ c.visible.table.get (S.key row) = none

/-- No commit of an inserted row fails. -/
def CommitsSucceed (c : Connection S) (calls : List (MethodCall S)) : Prop :=
  Along Connection.step (fun c call _ => ¬ CommitFails c call) c calls

/-! ## One operation -/

/-- No row is pending. -/
def Connection.Settled (c : Connection S) : Prop := c.visible.table = c.saved.table

/-- What an operation does to the table as long as commits succeed: nothing, or it inserts and
saves a row. -/
structure Connection.Stepped (c c' : Connection S) (call : MethodCall S) : Prop where
  settled : c'.Settled
  table : c'.visible.table = c.visible.table ∨ ∃ row failure, call = .insert row failure ∧
    c.visible.table.insert row = some c'.visible.table

/-- The visible contents with a row more. -/
def Connection.withTable (c : Connection S) (table : Table S.key) : Connection S :=
  { c with visible := { c.visible with table := table } }

/-- **An insert.**  It fails at once, finds its key taken, or adds its row, and then commits or
does not. -/
theorem insertRow_cases (c : Connection S) (row : S.Row) (failure : Option Failure) :
    (c.insertRow row failure = (c, .raised) ∧ failure = some .insert) ∨
    (c.insertRow row failure = (c.rollback, .inserted false) ∧
      c.visible.table.insert row = none) ∨
    ∃ table, c.visible.table.insert row = some table ∧
      ((c.insertRow row failure = (c.withTable table, .raised) ∧ failure = some .commit) ∨
        (c.insertRow row failure = ((c.withTable table).commit, .inserted true) ∧
          failure ≠ some .commit)) := by
  unfold Connection.insertRow
  by_cases hinsert : failure = some .insert
  · exact Or.inl ⟨if_pos hinsert, hinsert⟩
  · rw [if_neg hinsert]
    cases htable : c.visible.table.insert row with
    | none => exact Or.inr (Or.inl ⟨rfl, rfl⟩)
    | some table =>
      refine Or.inr (Or.inr ⟨table, rfl, ?_⟩)
      by_cases hfail : failure = some .commit
      · exact Or.inl ⟨if_pos hfail, hfail⟩
      · exact Or.inr ⟨if_neg hfail, hfail⟩

theorem insertRow_stepped {c : Connection S} {row : S.Row} {failure : Option Failure}
    (hc : c.Settled) (hcommit : ¬ CommitFails c (.insert row failure)) :
    c.Stepped (c.insertRow row failure).1 (.insert row failure) := by
  obtain ⟨h, -⟩ | ⟨h, -⟩ | ⟨table, htable, ⟨h, hfail⟩ | ⟨h, -⟩⟩ := insertRow_cases c row failure
  · rw [h]
    exact ⟨hc, Or.inl rfl⟩
  · rw [h]
    exact ⟨rfl, Or.inl hc.symm⟩
  · exact absurd ⟨row, by rw [hfail], Table.get_none_of_insert htable⟩ hcommit
  · rw [h]
    exact ⟨rfl, Or.inr ⟨row, failure, rfl, htable⟩⟩

/-- **One operation.**  As long as commits succeed, no row is ever pending. -/
theorem exec_stepped {c : Connection S} {call : MethodCall S} (hc : c.Settled)
    (hcommit : ¬ CommitFails c call) : c.Stepped (c.exec call).1 call := by
  cases call with
  | get eventId => exact ⟨hc, Or.inl rfl⟩
  | list accountId => exact ⟨hc, Or.inl rfl⟩
  | insert row failure => exact insertRow_stepped hc hcommit
  | appendAudit entry failure =>
    show c.Stepped (c.appendAudit entry failure).1 _
    unfold Connection.appendAudit
    by_cases hinsert : failure = some .insert
    · rw [if_pos hinsert]
      exact ⟨hc, Or.inl rfl⟩
    · rw [if_neg hinsert]
      by_cases hfail : failure = some .commit
      · simp only [if_pos hfail]
        exact ⟨hc, Or.inl rfl⟩
      · simp only [if_neg hfail]
        exact ⟨rfl, Or.inl rfl⟩

/-! ## Runs -/

theorem commitsSucceed_cons {c : Connection S} {call : MethodCall S} {calls : List (MethodCall S)} :
    CommitsSucceed c (call :: calls) ↔
      ¬ CommitFails c call ∧ CommitsSucceed (c.exec call).1 calls :=
  along_cons rfl

theorem commitsSucceed_append {c : Connection S} {calls calls' : List (MethodCall S)} :
    CommitsSucceed c (calls ++ calls') ↔
      CommitsSucceed c calls ∧ CommitsSucceed (c.after calls) calls' := by
  induction calls generalizing c with
  | nil => exact ⟨fun h => ⟨trivial, h⟩, fun h => h.2⟩
  | cons call calls ih =>
    rw [List.cons_append, commitsSucceed_cons, commitsSucceed_cons, ih, Connection.after_cons,
      and_assoc]

/-- What a run does to the table as long as commits succeed: rows stay, and a new one was
inserted. -/
theorem after_table {c : Connection S} {calls : List (MethodCall S)} (hc : c.Settled)
    (h : CommitsSucceed c calls) :
    (c.after calls).Settled ∧
      (∀ row ∈ c.visible.table.rows, row ∈ (c.after calls).visible.table.rows) ∧
      ∀ row ∈ (c.after calls).visible.table.rows,
        row ∈ c.visible.table.rows ∨ ∃ failure, .insert row failure ∈ calls := by
  induction calls generalizing c with
  | nil => exact ⟨hc, fun _ h => h, fun _ h => Or.inl h⟩
  | cons call calls ih =>
    obtain ⟨hcall, hrest⟩ := commitsSucceed_cons.mp h
    have hstep := exec_stepped hc hcall
    obtain ⟨hsettled, hkeep, hnew⟩ := ih hstep.settled hrest
    refine ⟨hsettled, ?_, ?_⟩
    · intro row hrow
      refine hkeep row ?_
      rcases hstep.table with heq | ⟨row', failure, -, hinsert⟩
      · rwa [heq]
      · exact (Table.mem_insert hinsert).mpr (Or.inl hrow)
    · intro row hrow
      rcases hnew row hrow with hmid | ⟨failure, hmem⟩
      · rcases hstep.table with heq | ⟨row', failure, rfl, hinsert⟩
        · exact Or.inl (heq ▸ hmid)
        · rcases (Table.mem_insert hinsert).mp hmid with hold | rfl
          · exact Or.inl hold
          · exact Or.inr ⟨failure, List.mem_cons_self⟩
      · exact Or.inr ⟨failure, List.mem_cons_of_mem _ hmem⟩

/-- The same condition, at every place of a run. -/
theorem commitsSucceed_iff {c : Connection S} {calls : List (MethodCall S)} :
    CommitsSucceed c calls ↔
      ∀ done call rest, calls = done ++ call :: rest → ¬ CommitFails (c.after done) call := by
  constructor
  · rintro h done call rest rfl
    exact (commitsSucceed_cons.mp (commitsSucceed_append.mp h).2).1
  · intro h
    induction calls generalizing c with
    | nil => trivial
    | cons call calls ih =>
      refine commitsSucceed_cons.mpr ⟨h [] call calls rfl, ih ?_⟩
      rintro done call' rest rfl
      exact h (call :: done) call' rest rfl

/-- An insert that raises, other than on its commit, changes nothing. -/
theorem insertRow_raised {c : Connection S} {row : S.Row} {failure : Option Failure}
    (hraised : (c.insertRow row failure).2 = .raised)
    (hcommit : ¬ CommitFails c (.insert row failure)) : (c.insertRow row failure).1 = c := by
  obtain ⟨h, -⟩ | ⟨h, -⟩ | ⟨table, htable, ⟨h, hfail⟩ | ⟨h, -⟩⟩ := insertRow_cases c row failure
  · rw [h]
  · rw [h] at hraised
    cases hraised
  · exact absurd ⟨row, by rw [hfail], Table.get_none_of_insert htable⟩ hcommit
  · rw [h] at hraised
    cases hraised

/-- A row that was inserted is in the table. -/
theorem mem_of_insertRow {c : Connection S} {row : S.Row} {failure : Option Failure}
    (h : (c.insertRow row failure).2 = .inserted true) :
    row ∈ (c.insertRow row failure).1.visible.table.rows := by
  obtain ⟨h', -⟩ | ⟨h', -⟩ | ⟨table, htable, ⟨h', -⟩ | ⟨h', -⟩⟩ := insertRow_cases c row failure
  · rw [h'] at h
    cases h
  · rw [h'] at h
    cases h
  · rw [h'] at h
    cases h
  · rw [h']
    exact (Table.mem_insert htable).mpr (Or.inr rfl)

/-- An insert returns no row. -/
theorem insertRow_ne_row {c : Connection S} {row : S.Row} {failure : Option Failure}
    {found : Option S.Row} : (c.insertRow row failure).2 ≠ .row found := by
  intro h
  obtain ⟨h', -⟩ | ⟨h', -⟩ | ⟨table, -, ⟨h', -⟩ | ⟨h', -⟩⟩ := insertRow_cases c row failure <;>
  · rw [h'] at h
    cases h

/-- A row that is reported can be read. -/
theorem mem_of_reports {c : Connection S} {call : MethodCall S} {row : S.Row}
    (h : call.Reports (c.exec call).2 row) : row ∈ (c.exec call).1.visible.table.rows := by
  cases call with
  | get eventId =>
    rcases h with hrow | ⟨⟨failure, hcall⟩, -⟩
    · exact Table.mem_of_get (Reply.row.inj hrow)
    · cases hcall
  | list accountId =>
    rcases h with hrow | ⟨-, hinserted⟩
    · cases hrow
    · cases hinserted
  | insert row' failure =>
    rcases h with hrow | ⟨⟨failure', hcall⟩, hinserted⟩
    · exact absurd hrow insertRow_ne_row
    · cases hcall
      exact mem_of_insertRow hinserted
  | appendAudit entry failure =>
    rcases h with hrow | ⟨⟨failure', hcall⟩, -⟩
    · simp only [Connection.exec, Connection.appendAudit] at hrow
      split_ifs at hrow
    · cases hcall

/-- Commits that succeed leave nothing behind. -/
theorem leavesNothing_of_commitsSucceed {c : Connection S} {calls : List (MethodCall S)}
    (hc : c.Settled) (h : CommitsSucceed c calls) : FailedWritesLeaveNothing c calls := by
  constructor
  · rintro done row failure later rest rfl hraised hnew hagain
    obtain ⟨hdone, htail⟩ := commitsSucceed_append.mp h
    obtain ⟨hcall, hlater⟩ := commitsSucceed_cons.mp htail
    have hsame := insertRow_raised hraised hcall
    obtain ⟨hsettled, -, -⟩ := after_table hc hdone
    have hstate : c.after (done ++ .insert row failure :: later) =
        (c.after done).after later := by
      rw [Connection.after_append, Connection.after_cons]
      exact congrArg (Connection.after · later) hsame
    have hlater' : CommitsSucceed (c.after done) later := by
      have hrun := (commitsSucceed_append.mp hlater).1
      rwa [show ((c.after done).exec (.insert row failure)).1 = c.after done from hsame] at hrun
    obtain ⟨hsettled', -, hrows⟩ := after_table hsettled hlater'
    have hnot : row ∉ ((c.after done).after later).visible.table.rows := by
      intro hmem
      rcases hrows row hmem with hold | ⟨failure', hinsert⟩
      · exact hnew hold
      · exact hagain failure' hinsert
    rw [hstate]
    exact ⟨hnot, hsettled' ▸ hnot⟩
  · rintro done call later rest row rfl hreports
    obtain ⟨hdone, htail⟩ := commitsSucceed_append.mp h
    obtain ⟨hcall, hlater⟩ := commitsSucceed_cons.mp htail
    obtain ⟨hsettled, -, -⟩ := after_table hc hdone
    have hstep := exec_stepped hsettled hcall
    obtain ⟨-, hkeep, -⟩ := after_table hstep.settled (commitsSucceed_append.mp hlater).1
    rw [Connection.after_append, Connection.after_cons]
    exact hkeep row (mem_of_reports hreports)

/-- A row whose commit fails is left behind at once. -/
theorem commitsSucceed_of_leavesNothing {c : Connection S} {calls : List (MethodCall S)}
    (h : RaisedLeavesNothing c calls) : CommitsSucceed c calls := by
  apply commitsSucceed_iff.mpr
  rintro done call rest hcalls ⟨row, rfl, hfree⟩
  have hnew : row ∉ (c.after done).visible.table.rows := by
    intro hmem
    rw [Table.get_of_mem hmem] at hfree
    cases hfree
  obtain ⟨table, htable⟩ : ∃ table, (c.after done).visible.table.insert row = some table := by
    cases htable : (c.after done).visible.table.insert row with
    | none =>
      obtain ⟨row', hrow'⟩ := Table.insert_eq_none_iff.mp htable
      rw [hfree] at hrow'
      cases hrow'
    | some table => exact ⟨table, rfl⟩
  have hexec : (c.after done).exec (.insert row (some .commit)) =
      ({ c.after done with visible := { (c.after done).visible with table := table } },
        .raised) := by
    simp [Connection.exec, Connection.insertRow, htable]
  have hgone := h done row (some .commit) [] rest hcalls (by rw [hexec]) hnew (by simp)
  rw [Connection.after_append, Connection.after_cons, hexec] at hgone
  exact hgone.1 ((Table.mem_insert htable).mpr (Or.inr rfl))

/-- **The condition.**  Failed writes leave nothing behind if and only if no commit of an inserted
row fails. -/
theorem leavesNothing_iff {c : Connection S} (hc : c.Settled) (calls : List (MethodCall S)) :
    FailedWritesLeaveNothing c calls ↔ CommitsSucceed c calls :=
  ⟨fun h => commitsSucceed_of_leavesNothing h.raised, leavesNothing_of_commitsSucceed hc⟩

/-! ## The two databases -/

/-- The `transactions` table. -/
def transactionsSchema : Schema where
  Row := StoredTransaction
  key := StoredTransaction.eventId
  listing rows accountId :=
    (rows.filter (·.accountId = accountId)).insertionSort StoredTransaction.listedBefore

/-- The `events` table. -/
def eventsSchema : Schema where
  Row := StoredEvent
  key := StoredEvent.eventId
  listing rows accountId :=
    (rows.filter (·.accountId = accountId)).insertionSort
      (orderedBy StoredEvent.eventTimestamp StoredEvent.receivedAt)

/-- The connection of a database with nothing pending. -/
def AccountDB.connection (db : AccountDB) : Connection transactionsSchema :=
  .opened ⟨db.transactions, db.auditLog⟩

/-- The connection of a database with nothing pending. -/
def GatewayDB.connection (db : GatewayDB) : Connection eventsSchema :=
  .opened ⟨db.events, db.auditLog⟩

/-- Without failures, an insert is that of the database the table belongs to. -/
theorem insertRow_opened {D : Type} (contents : Contents S) (row : S.Row)
    (withTable : Table S.key → D) (connection : D → Connection S)
    (hopened : ∀ table, connection (withTable table) = .opened { contents with table := table }) :
    (Connection.opened contents).insertRow row none =
      ((contents.table.insert row).map withTable).elim (.opened contents, .inserted false)
        fun db => (connection db, .inserted true) := by
  unfold Connection.insertRow
  rw [if_neg (by simp)]
  have htable : (Connection.opened contents).visible.table = contents.table := rfl
  rw [htable]
  cases contents.table.insert row with
  | none => rfl
  | some table =>
    show (Connection.opened { contents with table := table }, Reply.inserted true) =
      (connection (withTable table), .inserted true)
    rw [hopened]

/-- **Refinement.**  Without failures, the connection does what `AccountDB` does. -/
theorem AccountDB.exec_connection (db : AccountDB) :
    (∀ eventId, db.connection.exec (.get eventId) =
      (db.connection, .row (db.getTransaction eventId))) ∧
    (∀ accountId, db.connection.exec (.list accountId) =
      (db.connection, .rows (db.listTransactions accountId))) ∧
    (∀ tx, db.connection.exec (.insert tx none) =
      (db.insertTransaction tx).elim (db.connection, .inserted false)
        fun db' => (db'.connection, .inserted true)) ∧
    ∀ entry, db.connection.exec (.appendAudit entry none) =
      ((db.appendAudit entry).connection, .appended) := by
  refine ⟨fun _ => rfl, fun _ => rfl, ?_, fun _ => rfl⟩
  intro tx
  exact insertRow_opened ⟨db.transactions, db.auditLog⟩ tx
    (fun transactions => { db with transactions := transactions }) AccountDB.connection
    fun _ => rfl

/-- **Refinement.**  Without failures, the connection does what `GatewayDB` does. -/
theorem GatewayDB.exec_connection (db : GatewayDB) :
    (∀ eventId, db.connection.exec (.get eventId) =
      (db.connection, .row (db.getEvent eventId))) ∧
    (∀ accountId, db.connection.exec (.list accountId) =
      (db.connection, .rows (db.listEvents accountId))) ∧
    (∀ event, db.connection.exec (.insert event none) =
      (db.insertEvent event).elim (db.connection, .inserted false)
        fun db' => (db'.connection, .inserted true)) ∧
    ∀ entry, db.connection.exec (.appendAudit entry none) =
      ((db.appendAudit entry).connection, .appended) := by
  refine ⟨fun _ => rfl, fun _ => rfl, ?_, fun _ => rfl⟩
  intro event
  exact insertRow_opened ⟨db.events, db.auditLog⟩ event
    (fun events => { db with events := events }) GatewayDB.connection fun _ => rfl

/-- **Failed writes.**  For both databases and every sequence of operations, failed writes leave
nothing behind if and only if no commit of an inserted row fails. -/
theorem failed_writes_iff (accounts : AccountDB) (gateway : GatewayDB)
    (accountCalls : List (MethodCall transactionsSchema))
    (gatewayCalls : List (MethodCall eventsSchema)) :
    (FailedWritesLeaveNothing accounts.connection accountCalls ↔
      CommitsSucceed accounts.connection accountCalls) ∧
    (FailedWritesLeaveNothing gateway.connection gatewayCalls ↔
      CommitsSucceed gateway.connection gatewayCalls) :=
  ⟨leavesNothing_iff (c := accounts.connection) rfl accountCalls,
    leavesNothing_iff (c := gateway.connection) rfl gatewayCalls⟩

/-! ## A disk that is full for a moment -/

/-- The entry of a repeated submission. -/
def sampleEntry : AuditEntry :=
  AuditTrail.entry "account-service" ⟨sampleTimestamp, none⟩ "TRANSACTION_APPLY" "DUPLICATE"
    (some "acct-123") (some "evt-1") []

/-- The commit of `evt-1` fails; the next audit entry commits it. -/
def savedLater : List (MethodCall transactionsSchema) :=
  [.insert (sampleCredit "evt-1" "1") (some .commit), .appendAudit sampleEntry none]

/-- The commit of `evt-1` fails; it is read, and gone once it is submitted again. -/
def lostLater : List (MethodCall transactionsSchema) :=
  [.insert (sampleCredit "evt-1" "1") (some .commit), .get "evt-1",
    .insert (sampleCredit "evt-1" "1") none]

/-- After a failed commit a row can be saved by an unrelated write, or read and then removed. -/
theorem failed_commit_is_not_undone :
    (¬ ∀ (db : AccountDB) (calls : List (MethodCall transactionsSchema)),
      RaisedLeavesNothing db.connection calls) ∧
    ¬ ∀ (db : AccountDB) (calls : List (MethodCall transactionsSchema)),
      ReportedStays db.connection calls := by
  constructor
  · intro h
    have hgone := h AccountDB.new savedLater [] (sampleCredit "evt-1" "1") (some .commit)
      [.appendAudit sampleEntry none] [] rfl rfl (List.not_mem_nil) (by simp)
    have hsaved : (AccountDB.new.connection.after savedLater).saved.table.rows =
        [sampleCredit "evt-1" "1"] := rfl
    have hmem : sampleCredit "evt-1" "1" ∈
        (AccountDB.new.connection.after savedLater).saved.table.rows := by
      rw [hsaved]
      exact List.mem_singleton_self _
    exact hgone.2 hmem
  · intro h
    have hstays := h AccountDB.new lostLater
      [.insert (sampleCredit "evt-1" "1") (some .commit)] (.get "evt-1")
      [.insert (sampleCredit "evt-1" "1") none] [] (sampleCredit "evt-1" "1") rfl (Or.inl rfl)
    have hempty : (AccountDB.new.connection.after lostLater).visible.table.rows = [] := rfl
    have hmem : sampleCredit "evt-1" "1" ∈
        (AccountDB.new.connection.after lostLater).visible.table.rows := hstays
    rw [hempty] at hmem
    cases hmem

end EventLedger
