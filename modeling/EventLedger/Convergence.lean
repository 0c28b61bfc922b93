import EventLedger.Agreement

/-!
# Order and duplication do not matter

When an event id always carries one payload, what the two stores end up with is
a function of the set of events delivered: `mem_transactions_iff` and
`mem_events_iff` say which rows there are, whatever the order, the interleaving,
the duplicates and the failures on the way.  Two runs that deliver the same
events therefore end in the same tables, up to the two clock columns
(`converges`).
-/
namespace EventLedger

open Program LabelledRun KeyedTable

/-- Everything in an event's row but `received_at`. -/
def StoredEvent.content (e : StoredEvent) : LedgerFields × Option String :=
  (e.fields, e.metadataJson)

/-- A transaction of the event has these fields: everything in its row but `created_at`. -/
def EventRequest.AppliedAs (e : EventRequest) (f : LedgerFields) : Prop :=
  ∃ (sent : Attempt) (tx : StoredTransaction), sent.Forwards e ∧ sent.Stores tx ∧ tx.fields = f

/-- A row of the event has this content. -/
def EventRequest.RecordedAs (e : EventRequest) (c : LedgerFields × Option String) : Prop :=
  ∃ row : StoredEvent, e.Records row ∧ row.content = c

/-- An event is applied in one way only. -/
theorem EventRequest.AppliedAs.unique {e : EventRequest} {f f' : LedgerFields}
    (h : e.AppliedAs f) (h' : e.AppliedAs f') : f = f' := by
  obtain ⟨sent, tx, ⟨amount, hamount, haccount, hpayload⟩, hstores, rfl⟩ := h
  obtain ⟨sent', tx', ⟨amount', hamount', haccount', hpayload'⟩, hstores', rfl⟩ := h'
  cases hamount.symm.trans hamount'
  obtain ⟨routed, request, now, hroute, hvalid, hstored⟩ := hstores
  have hroute' : accountRoute sent'.accountId = .account routed := by
    rw [haccount', ← haccount]
    exact hroute
  rw [fields_of_stores ⟨routed, request, now, hroute, hvalid, hstored⟩ hroute hamount hpayload,
    fields_of_stores hstores' hroute' hamount hpayload']

/-- An event is recorded in one way only. -/
theorem EventRequest.RecordedAs.unique {e : EventRequest} {c c' : LedgerFields × Option String}
    (h : e.RecordedAs c) (h' : e.RecordedAs c') : c = c' := by
  obtain ⟨_, ⟨amount, now, hamount, rfl⟩, rfl⟩ := h
  obtain ⟨_, ⟨amount', now', hamount', rfl⟩, rfl⟩ := h'
  cases hamount.symm.trans hamount'
  rfl

namespace World

/-- Only events of `E` are submitted. -/
def Within (w : World) (E : Set EventRequest) : Prop :=
  ∀ i body, w.shared.bodies i = some body → body ∈ E

/-- Each event of `E` has been answered with a success. -/
def Delivered (w : World) (E : Set EventRequest) : Prop :=
  ∀ e ∈ E, ∃ i answer, w.shared.bodies i = some e ∧ w.Answered i answer ∧
    200 ≤ answer.status ∧ answer.status < 300

/-- Both stores of two worlds have the same rows, up to the clock columns. -/
structure Converged (w w' : World) : Prop where
  transactions : (w.shared.account.transactions.rows.map (·.fields)).Perm
    (w'.shared.account.transactions.rows.map (·.fields))
  events : (w.shared.gateway.events.rows.map (·.content)).Perm
    (w'.shared.gateway.events.rows.map (·.content))
  /-- The transactions of an account, as `(type, amount, currency)`. -/
  account : ∀ accountId,
    ((w.shared.account.listTransactions accountId).map fun tx =>
      (tx.type, tx.amount, tx.currency)).Perm
    ((w'.shared.account.listTransactions accountId).map fun tx =>
      (tx.type, tx.amount, tx.currency))
  /-- The `transactionCount` of an account. -/
  count : ∀ accountId answer answer', getBalance w.shared.account accountId = some answer →
    getBalance w'.shared.account accountId = some answer' →
    answer.transactionCount = answer'.transactionCount

variable {dep dep' : Deployment} {w w' : World} {E : Set EventRequest}

/-- A stored transaction is that of a submitted event. -/
theorem Ok.applied (h : Ok dep w) (hwithin : w.Within E) {tx : StoredTransaction}
    (htx : tx ∈ w.ledger.transactions.rows) :
    ∃ e ∈ E, e.eventId = tx.eventId ∧ e.AppliedAs tx.fields := by
  obtain ⟨sent, hsent, hstores⟩ := h.consistent.transaction_origin tx htx
  obtain ⟨body, hbody, hforwards⟩ := h.consistent.attempt_origin sent hsent
  have hid : body.eventId = tx.eventId := by
    rw [hstores.eventId, hforwards.eventId]
  exact ⟨body, hwithin _ body hbody, hid, sent, tx, hforwards, hstores, rfl⟩

/-- A recorded event is that of a submitted one. -/
theorem Ok.recordedAs (h : Ok dep w) (hwithin : w.Within E) {row : StoredEvent}
    (hrow : row ∈ w.ledger.events.rows) :
    ∃ e ∈ E, e.eventId = row.eventId ∧ e.RecordedAs row.content := by
  obtain ⟨sent, body, -, hbody, -, hrecords⟩ := h.consistent.event_origin row hrow
  exact ⟨body, hwithin _ body hbody, hrecords.eventId.symm, row, hrecords, rfl⟩

variable (hE : ∀ e ∈ E, ∀ e' ∈ E, e.eventId = e'.eventId → e = e')

include hE

/-- **The transactions table** holds what the delivered events are applied as. -/
theorem Ok.mem_transactions_iff (h : Ok dep w) (hwithin : w.Within E) (hdelivered : w.Delivered E)
    (f : LedgerFields) :
    f ∈ w.ledger.transactions.rows.map (·.fields) ↔ ∃ e ∈ E, e.AppliedAs f := by
  constructor
  · intro hf
    obtain ⟨tx, htx, rfl⟩ := List.mem_map.mp hf
    obtain ⟨e, he, -, happlied⟩ := h.applied hwithin htx
    exact ⟨e, he, happlied⟩
  · rintro ⟨e, he, happlied⟩
    obtain ⟨i, answer, hbody, hanswered, -, hsuccess⟩ := hdelivered e he
    obtain ⟨-, tx, htx⟩ := h.rows_of_success hanswered hbody (by omega)
    obtain ⟨e', he', hid, happlied'⟩ := h.applied hwithin (Table.mem_of_get htx)
    -- the row under the event's id is the event's own
    have hsame : e = e' := hE e he e' he' (hid.trans (Table.key_of_get htx)).symm
    rw [happlied.unique (hsame ▸ happlied')]
    exact List.mem_map_of_mem (Table.mem_of_get htx)

/-- **The events table** holds what the delivered events are recorded as. -/
theorem Ok.mem_events_iff (h : Ok dep w) (hwithin : w.Within E) (hdelivered : w.Delivered E)
    (c : LedgerFields × Option String) :
    c ∈ w.ledger.events.rows.map (·.content) ↔ ∃ e ∈ E, e.RecordedAs c := by
  constructor
  · intro hc
    obtain ⟨row, hrow, rfl⟩ := List.mem_map.mp hc
    obtain ⟨e, he, -, hrecorded⟩ := h.recordedAs hwithin hrow
    exact ⟨e, he, hrecorded⟩
  · rintro ⟨e, he, hrecorded⟩
    obtain ⟨i, answer, hbody, hanswered, -, hsuccess⟩ := hdelivered e he
    obtain ⟨⟨row, hrow⟩, -⟩ := h.rows_of_success hanswered hbody (by omega)
    obtain ⟨e', he', hid, hrecorded'⟩ := h.recordedAs hwithin (Table.mem_of_get hrow)
    have hsame : e = e' := hE e he e' he' (hid.trans (Table.key_of_get hrow)).symm
    rw [hrecorded.unique (hsame ▸ hrecorded')]
    exact List.mem_map_of_mem (Table.mem_of_get hrow)

omit hE

/-- What an account's listing shows, read off the fields of the whole table. -/
theorem listing_perm (db : AccountDB) (accountId : String) :
    ((db.listTransactions accountId).map fun tx => (tx.type, tx.amount, tx.currency)).Perm
      (((db.transactions.rows.map (·.fields)).filter (·.accountId = accountId)).map fun f =>
        (f.type, f.amount, f.currency)) := by
  rw [List.filter_map, List.map_map]
  exact (listTransactions_perm db accountId).map _

theorem transactionCount_eq {db : AccountDB} {accountId : String} {answer : BalanceResponse}
    (h : getBalance db accountId = some answer) :
    answer.transactionCount = (db.listTransactions accountId).length := by
  obtain ⟨balance, -, rfl⟩ := Option.map_eq_some_iff.mp h
  rfl

/-- **Order and duplication do not matter.**  Two states, of any two runs, that have answered each
event of `E` with a success and received nothing else hold the same rows. -/
theorem converges (hE : ∀ e ∈ E, ∀ e' ∈ E, e.eventId = e'.eventId → e = e')
    (hw : Reachable dep w) (hw' : Reachable dep' w') (hwithin : w.Within E)
    (hwithin' : w'.Within E) (hdelivered : w.Delivered E) (hdelivered' : w'.Delivered E) :
    Converged w w' := by
  have htransactions : (w.ledger.transactions.rows.map (·.fields)).Perm
      (w'.ledger.transactions.rows.map (·.fields)) := by
    refine Table.perm_of_same_view StoredTransaction.fields LedgerFields.eventId (fun _ => rfl)
      fun f => ?_
    rw [hw.ok.mem_transactions_iff hE hwithin hdelivered,
      hw'.ok.mem_transactions_iff hE hwithin' hdelivered']
  have hevents : (w.ledger.events.rows.map (·.content)).Perm
      (w'.ledger.events.rows.map (·.content)) := by
    refine Table.perm_of_same_view StoredEvent.content (fun c => c.1.eventId) (fun _ => rfl)
      fun c => ?_
    rw [hw.ok.mem_events_iff hE hwithin hdelivered,
      hw'.ok.mem_events_iff hE hwithin' hdelivered']
  have haccount := fun accountId =>
    ((listing_perm w.shared.account accountId).trans ((htransactions.filter _).map _)).trans
      (listing_perm w'.shared.account accountId).symm
  refine ⟨htransactions, hevents, haccount, fun accountId answer answer' hget hget' => ?_⟩
  have hlength := (haccount accountId).length_eq
  rw [List.length_map, List.length_map] at hlength
  rw [transactionCount_eq hget, transactionCount_eq hget', hlength]

/-- A run that submits one event only, and answers it with a 201, delivers it. -/
theorem delivered_of_statusOf {ls : List Label} {i : ℕ} {e : EventRequest}
    (hrun : Run (step dep) initial ls w) (honly : ∀ j body, Label.submit j body ∈ ls → body = e)
    (hstatus : w.statusOf i = some 201) : w.Within {e} ∧ w.Delivered {e} := by
  have hwithin : w.Within {e} := bodies_of_labels hrun honly
  refine ⟨hwithin, fun e' he' => ?_⟩
  obtain ⟨answer, hanswered, h201⟩ := statusOf_eq_some.mp hstatus
  obtain ⟨body, hbody, -⟩ := (Reachable.ok ⟨_, hrun⟩).answer_true hanswered
  have hsame : body = e' := (hwithin i body hbody).trans he'.symm
  exact ⟨i, answer, hsame ▸ hbody, hanswered, by omega, by omega⟩

/-- The sample event, recorded at once, and recorded after three lost responses. -/
theorem converges_after_retries : ∃ w w', Converged w w' ∧
    w.shared.account.transactions.rows.length = 1 ∧ w'.shared.attempts.length = 4 := by
  have hsome : (((recordingRun 0 0 sampleEvent).foldlM (step defaultDeployment) initial).map
      fun w => (w.statusOf 0, w.shared.account.transactions.rows.length)) = some (some 201, 1) := by
    decide +kernel
  have hsome' : (((resubmissionRun sampleEvent sampleEvent).foldlM (step defaultDeployment)
      initial).map fun w => (w.statusOf 1, w.shared.attempts.length)) = some (some 201, 4) := by
    decide +kernel
  obtain ⟨w, hrun, hw⟩ := Option.map_eq_some_iff.mp hsome
  obtain ⟨w', hrun', hw'⟩ := Option.map_eq_some_iff.mp hsome'
  obtain ⟨hstatus, hlength⟩ := Prod.mk.inj hw
  obtain ⟨hstatus', hlength'⟩ := Prod.mk.inj hw'
  obtain ⟨hwithin, hdelivered⟩ := delivered_of_statusOf hrun (e := sampleEvent) (fun j body h => by
    have hlabel : j = 0 ∧ body = sampleEvent := by simpa [recordingRun] using h
    exact hlabel.2) hstatus
  obtain ⟨hwithin', hdelivered'⟩ := delivered_of_statusOf hrun' (e := sampleEvent)
    (fun j body h => by
      have hlabel : (j = 0 ∧ body = sampleEvent) ∨ (j = 1 ∧ body = sampleEvent) := by
        simpa [resubmissionRun, unavailableRun] using h
      exact hlabel.elim And.right And.right) hstatus'
  have hsingle : ∀ e ∈ ({sampleEvent} : Set EventRequest),
      ∀ e' ∈ ({sampleEvent} : Set EventRequest), e.eventId = e'.eventId → e = e' :=
    fun e he e' he' _ => he.trans he'.symm
  exact ⟨w, w', converges hsingle ⟨_, hrun⟩ ⟨_, hrun'⟩ hwithin hwithin' hdelivered hdelivered',
    hlength, hlength'⟩

end World

end EventLedger
