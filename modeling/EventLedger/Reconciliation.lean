import EventLedger.Agreement
import EventLedger.Balance

/-!
# Reconciling the two ledgers

The Gateway's copy of an account may lag behind the Account Service's ledger: a
transaction is applied before its event is recorded, and not every answer comes
back.  As long as an event id is not reused for other content, that is all that
can be between them: the ledger has the transactions the Gateway shows, and
those in doubt, and the two balances differ by what is in doubt
(`ledgers_reconcile`).  A transaction is in doubt only while no submission of its
event has been told that it succeeded.
-/
namespace EventLedger

open Program LabelledRun KeyedTable DecimalFloat

/-! ## Balances of what the two ledgers have in common -/

/-- What an entry adds to a balance. -/
def LedgerFields.signedAmount (f : LedgerFields) : ℚ :=
  if f.type = .credit then ((parse f.amount).map Decimal.value).getD 0
  else -((parse f.amount).map Decimal.value).getD 0

/-- The credits minus the debits. -/
def netAmount (entries : List LedgerFields) : ℚ := (entries.map (·.signedAmount)).sum

theorem netAmount_append (entries entries' : List LedgerFields) :
    netAmount (entries ++ entries') = netAmount entries + netAmount entries' := by
  rw [netAmount, List.map_append, List.sum_append]
  rfl

theorem netAmount_perm {entries entries' : List LedgerFields} (h : entries.Perm entries') :
    netAmount entries = netAmount entries' := (h.map _).sum_eq

theorem exactBalance_eq_netAmount (txs : List StoredTransaction) :
    exactBalance txs = netAmount (txs.map (·.fields)) := by
  induction txs using List.reverseRecOn with
  | nil => simp [netAmount]
  | append_singleton txs tx ih =>
    rw [exactBalance_snoc, ih, List.map_append, netAmount_append]
    refine congrArg (netAmount (txs.map (·.fields)) + ·) ?_
    rw [netAmount, List.map_singleton, List.map_singleton, List.sum_singleton]
    rfl

/-! ## One content for each event -/

/-- What is stored for one attempt could be stored for any that forwards the same content. -/
theorem Attempt.Stores.of_sameContent {sent sent' : Attempt} {body body' : EventRequest}
    {tx : StoredTransaction} (hforwards : sent.Forwards body) (hforwards' : sent'.Forwards body')
    (hid : body.eventId = body'.eventId) (hsame : World.SameContent body body')
    (h : sent'.Stores tx) : sent.Stores tx := by
  obtain ⟨haccount, htype, hamount, hcurrency, htimestamp⟩ := hsame
  obtain ⟨amount, hprint, hto, hpayload⟩ := hforwards
  obtain ⟨amount', hprint', hto', hpayload'⟩ := hforwards'
  rw [← hamount] at hprint'
  cases hprint.symm.trans hprint'
  have hpayloads : sent'.payload = sent.payload := by
    rw [hpayload, hpayload', EventRequest.payload, EventRequest.payload, hid, htype, hcurrency,
      htimestamp]
  have haccounts : sent'.accountId = sent.accountId := by rw [hto, hto', haccount]
  obtain ⟨routed, request, now, hroute, hvalid, hstored⟩ := h
  rw [haccounts] at hroute
  rw [hpayloads] at hvalid
  exact ⟨routed, request, now, hroute, hvalid, hstored⟩

namespace World

variable {dep : Deployment} {w : World}

/-- No event id is submitted with two contents. -/
def OneContent (w : World) : Prop :=
  ∀ i j body body', w.shared.bodies i = some body → w.shared.bodies j = some body' →
    body.eventId = body'.eventId → SameContent body body'

/-- The accounts that are submitted to go through a URL as they are. -/
def PlainAccounts (w : World) : Prop :=
  ∀ i body, w.shared.bodies i = some body → Plain body.accountId

/-- Every event shows a transaction. -/
theorem Ok.fields_of_event (h : Ok dep w) (hplain : w.PlainAccounts) (hone : w.OneContent) :
    ∀ row ∈ w.shared.gateway.events.rows,
      ∃ tx ∈ w.shared.account.transactions.rows, tx.fields = row.fields := by
  intro row hrow
  obtain ⟨sent, body, -, hbody, hforwards, hrecords⟩ := h.consistent.event_origin row hrow
  obtain ⟨tx, htx⟩ := h.consistent.transaction_of_event row hrow
  obtain ⟨sent', hsent', hstores'⟩ := h.consistent.transaction_origin tx (Table.mem_of_get htx)
  obtain ⟨body', hbody', hforwards'⟩ := h.consistent.attempt_origin sent' hsent'
  have hid : body.eventId = body'.eventId := by
    rw [← hforwards'.eventId, ← hstores'.eventId, ← hrecords.eventId]
    exact (Table.key_of_get htx).symm
  have hstores := Attempt.Stores.of_sameContent hforwards hforwards' hid
    (hone _ _ body body' hbody hbody' hid) hstores'
  exact ⟨tx, Table.mem_of_get htx, fields_agree (hplain _ body hbody) hforwards hrecords hstores⟩

/-! ## What is in doubt -/

/-- The transactions of an account that the Gateway has no event for. -/
def inDoubt (w : World) (accountId : String) : List StoredTransaction :=
  (w.shared.account.rowsOf accountId).filter fun tx => (w.shared.gateway.getEvent tx.eventId).isNone

/-- The ledger of an account is what the Gateway lists, and what is in doubt. -/
theorem Ok.perm_of_account (h : Ok dep w) (hplain : w.PlainAccounts) (hone : w.OneContent)
    (accountId : String) :
    ((w.shared.account.listTransactions accountId).map (·.fields)).Perm
      ((w.shared.gateway.listEvents accountId).map (·.fields) ++
        (w.inDoubt accountId).map (·.fields)) := by
  have hcopy := (Table.perm_copy w.shared.account.transactions w.shared.gateway.events
    StoredTransaction.fields StoredEvent.fields LedgerFields.eventId (fun _ => rfl) (fun _ => rfl)
    (h.fields_of_event hplain hone)).filter (·.accountId = accountId)
  rw [List.filter_append, List.filter_map, List.filter_map, List.filter_map, List.filter_filter]
    at hcopy
  have htransactions := (listTransactions_perm w.shared.account accountId).map (·.fields)
  have hevents : ((w.shared.gateway.listEvents accountId).map (·.fields)).Perm
      ((w.shared.gateway.rowsOf accountId).map (·.fields)) := (List.perm_insertionSort _ _).map _
  have hdoubt : w.inDoubt accountId = w.shared.account.transactions.rows.filter fun tx =>
      decide (tx.accountId = accountId) && (w.shared.gateway.events.get tx.eventId).isNone := by
    rw [inDoubt, AccountDB.rowsOf, List.filter_filter]
    exact List.filter_congr fun tx _ => Bool.and_comm _ _
  rw [hdoubt]
  exact htransactions.trans (hcopy.trans (hevents.symm.append_right _))

/-- A transaction in doubt belongs to submissions none of which has been told that it succeeded. -/
theorem Ok.inDoubt_unanswered (h : Ok dep w) {accountId : String} {tx : StoredTransaction}
    (htx : tx ∈ w.inDoubt accountId) :
    (∃ i body, w.shared.bodies i = some body ∧ body.eventId = tx.eventId) ∧
      ∀ i body answer, w.shared.bodies i = some body → body.eventId = tx.eventId →
        w.Answered i answer → 400 ≤ answer.status := by
  obtain ⟨hrows, hnone⟩ := List.mem_filter.mp htx
  constructor
  · obtain ⟨sent, hsent, hstores⟩ :=
      h.consistent.transaction_origin tx (List.mem_of_mem_filter hrows)
    obtain ⟨body, hbody, hforwards⟩ := h.consistent.attempt_origin sent hsent
    exact ⟨_, body, hbody, hforwards.eventId.symm.trans hstores.eventId.symm⟩
  · intro i body answer hbody hid hanswered
    by_contra hsuccess
    obtain ⟨⟨row, hrow⟩, -⟩ := h.rows_of_success hanswered hbody (not_le.mp hsuccess)
    rw [hid] at hrow
    rw [show w.shared.gateway.getEvent tx.eventId = some row from hrow] at hnone
    cases hnone

/-- **Reconciliation.**  In every state of every run in which no event id is submitted with two
contents, the transactions of an account are, field by field, the events the Gateway lists for it
and those in doubt; the exact balance, and the text `get_balance` reports wherever that is exact,
is the balance of the events and of what is in doubt; and what is in doubt belongs to submissions
none of which has been told that it succeeded. -/
theorem ledgers_reconcile (dep : Deployment) (w : World) (h : Reachable dep w)
    (hplain : w.PlainAccounts) (hone : w.OneContent) (accountId : String) :
    ((w.shared.account.listTransactions accountId).map (·.fields)).Perm
        ((w.shared.gateway.listEvents accountId).map (·.fields) ++
          (w.inDoubt accountId).map (·.fields)) ∧
      w.shared.account.exactBalance accountId =
        netAmount ((w.shared.gateway.listEvents accountId).map (·.fields)) +
          exactBalance (w.inDoubt accountId) ∧
      (BalanceExact w.shared.account accountId →
        ∃ answer d, getBalance w.shared.account accountId = some answer ∧
          parse answer.balance = some d ∧
          d.value = netAmount ((w.shared.gateway.listEvents accountId).map (·.fields)) +
            exactBalance (w.inDoubt accountId)) ∧
      ∀ tx ∈ w.inDoubt accountId,
        (∃ i body, w.shared.bodies i = some body ∧ body.eventId = tx.eventId) ∧
          ∀ i body answer, w.shared.bodies i = some body → body.eventId = tx.eventId →
            w.Answered i answer → 400 ≤ answer.status := by
  have hperm := h.ok.perm_of_account hplain hone accountId
  have hbalance : w.shared.account.exactBalance accountId =
      netAmount ((w.shared.gateway.listEvents accountId).map (·.fields)) +
        exactBalance (w.inDoubt accountId) := by
    rw [← exactBalance_listing, exactBalance_eq_netAmount, netAmount_perm hperm, netAmount_append,
      exactBalance_eq_netAmount]
  refine ⟨hperm, hbalance, ?_, fun tx htx => h.ok.inDoubt_unanswered htx⟩
  rintro ⟨-, answer, d, hanswer, hparse, hvalue⟩
  exact ⟨answer, d, hanswer, hparse, hvalue.trans hbalance⟩

/-- A credit that was applied and answered 503 is in doubt. -/
theorem ledgers_reconcile_in_doubt : ∃ w : World,
    w.statusOf 0 = some 503 ∧ w.inDoubt "acct123" ≠ [] ∧
      w.shared.account.exactBalance "acct123" =
        netAmount ((w.shared.gateway.listEvents "acct123").map (·.fields)) +
          exactBalance (w.inDoubt "acct123") := by
  have hsome : (((unavailableRun firstVersion).foldlM (step defaultDeployment) initial).map
      fun w => (w.statusOf 0, (w.inDoubt "acct123").length)) = some (some 503, 1) := by
    decide +kernel
  obtain ⟨w, hrun, hw⟩ := Option.map_eq_some_iff.mp hsome
  obtain ⟨hstatus, hlength⟩ := Prod.mk.inj hw
  have hbodies := bodies_of_labels (P := fun i body => i = 0 ∧ body = firstVersion) hrun
    fun i body h => by simpa [unavailableRun] using h
  refine ⟨w, hstatus, ?_, (ledgers_reconcile defaultDeployment w ⟨_, hrun⟩ ?_ ?_ "acct123").2.1⟩
  · intro hnil
    rw [hnil] at hlength
    cases hlength
  · intro i body hbody
    rw [(hbodies i body hbody).2]
    decide
  · intro i j body body' hbody hbody' _
    rw [(hbodies i body hbody).2, (hbodies j body' hbody').2]
    exact ⟨rfl, rfl, rfl, rfl, rfl⟩

end World

end EventLedger
