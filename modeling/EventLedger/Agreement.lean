import EventLedger.CanonicalRows
import EventLedger.LedgerRuns

/-!
# The two stores describe the same events

`submit_event` stores its own request, not the transaction the Account Service
answered with.  The two agree as long as every answer a submission takes as its
success is about the content it forwarded (`agreement`); an idempotent replay of
other content under the same event id is accepted just as well, and then the
Gateway's copy describes a transaction that was never applied
(`copy_disagrees`).
-/
namespace EventLedger

open Program LabelledRun KeyedTable DecimalFloat

/-! ## What both services record of an event -/

/-- The fields the two stores have in common. -/
structure LedgerFields where
  eventId : String
  accountId : String
  type : TxType
  amount : String
  currency : String
  eventTimestamp : String
  deriving DecidableEq, Repr

def StoredEvent.fields (e : StoredEvent) : LedgerFields :=
  ⟨e.eventId, e.accountId, e.type, e.amount, e.currency, e.eventTimestamp⟩

def StoredTransaction.fields (tx : StoredTransaction) : LedgerFields :=
  ⟨tx.eventId, tx.accountId, tx.type, tx.amount, tx.currency, tx.eventTimestamp⟩

def EventResponse.fields (r : EventResponse) : LedgerFields :=
  ⟨r.eventId, r.accountId, r.type, r.amount, r.currency, r.eventTimestamp⟩

theorem StoredEvent.fields_toResponse {loads : String → Option Json} {e : StoredEvent}
    {duplicate : Bool} {response : EventResponse}
    (h : e.toResponse loads duplicate = some response) : response.fields = e.fields := by
  obtain ⟨hid, haccount, htype, hamount, hcurrency, htimestamp, -⟩ := toResponse_fields h
  rw [EventResponse.fields, hid, haccount, htype, hamount, hcurrency, htimestamp]
  rfl

/-- The fields of a transaction are those of the payload it is stored for, but for the account,
which is the routed one: amounts and timestamps are read and printed again unchanged. -/
theorem fields_of_stores {sent : Attempt} {body : EventRequest} {tx : StoredTransaction}
    {accountId amount : String} (hstores : sent.Stores tx)
    (hroute : accountRoute sent.accountId = .account accountId)
    (hamount : amountStr body.amount = some amount)
    (hpayload : sent.payload = body.payload amount) :
    tx.fields = ⟨body.eventId, accountId, body.type, amount, body.currency,
      body.eventTimestamp.isoformat⟩ := by
  obtain ⟨routed, request, now, hrouted, hvalid, hstored⟩ := hstores
  cases hroute.symm.trans hrouted
  rw [hpayload] at hvalid
  cases (stored_of_payload hamount hvalid accountId now).symm.trans hstored
  rfl

/-- Recording and applying one forwarded submission gives the same fields, for a plain account. -/
theorem fields_agree {sent : Attempt} {body : EventRequest} {row : StoredEvent}
    {tx : StoredTransaction} (hplain : Plain body.accountId) (hforwards : sent.Forwards body)
    (hrecords : body.Records row) (hstores : sent.Stores tx) : tx.fields = row.fields := by
  obtain ⟨amount, hamount, haccount, hpayload⟩ := hforwards
  obtain ⟨amount', now, hamount', rfl⟩ := hrecords
  cases hamount.symm.trans hamount'
  obtain ⟨routed, request, now', hroute, hvalid, hstored⟩ := hstores
  have hself : routed = body.accountId := routed_of_plain hplain (haccount ▸ hroute)
  rw [fields_of_stores ⟨routed, request, now', hroute, hvalid, hstored⟩ hroute hamount hpayload,
    hself]
  rfl

namespace World

/-- Every event in the Gateway has a transaction with its fields, and what a submission is told
was recorded is what was applied. -/
structure Agreement (w : World) : Prop where
  events_agree : ∀ row ∈ w.shared.gateway.events.rows,
    ∃ tx ∈ w.shared.account.transactions.rows, tx.fields = row.fields
  creations_agree : ∀ i response, w.Answered i (.recorded 201 response) →
    ∃ tx ∈ w.shared.account.transactions.rows, tx.fields = response.fields

/-- If the step reads an answer that names a transaction, the transaction under the event id is
one that is stored for the account id and payload the reading thread had sent. -/
def ReadsOwn (u : World) (l : Label) (_ : World) : Prop :=
  ∀ i c a k sent status response tx, l = .gateway i c → c.network = .responds →
    u.threads i = some (.act (.receive a) k) → u.shared.attempts[a]? = some sent →
    u.shared.replies a = some (.transaction status response) →
    u.shared.account.getTransaction sent.payload.eventId = some tx → sent.Stores tx

/-- What `ReadsOwn` keeps: the answers read so far are about the content that was sent. -/
def ReadOwn (l : Ledger) : Prop :=
  ∀ a ∈ l.received, ∃ sent answer, l.attempts[a]? = some sent ∧ l.replies a = some answer ∧
    ∀ status response, answer = .transaction status response →
      ∃ tx, l.transactions.get sent.payload.eventId = some tx ∧ sent.Stores tx

variable {dep : Deployment} {w w' : World}

theorem Ok.readOwn_step {l : Label} (h : Ok dep w) (hstep : World.step dep w l = some w')
    (hown : ReadsOwn w l w') (hread : ReadOwn w.ledger) : ReadOwn w'.ledger := by
  have hevolves := (h.step hstep).2
  intro a ha
  have hold : ∃ sent answer, w.ledger.attempts[a]? = some sent ∧
      w.ledger.replies a = some answer ∧ ∀ status response,
        answer = .transaction status response →
          ∃ tx, w.ledger.transactions.get sent.payload.eventId = some tx ∧ sent.Stores tx := by
    rcases step_received hstep ha with
      ha | ⟨i, c, k, answer, sent, hl, hthread, hnetwork, hreply, hsent⟩
    · exact hread a ha
    · refine ⟨sent, answer, hsent, hreply, fun status response hanswer => ?_⟩
      subst hanswer
      obtain ⟨tx, -, htx, -⟩ := h.consistent.reply_stored a status response sent hreply hsent
      exact ⟨tx, htx, hown i c a k sent status response tx hl hnetwork hthread hsent hreply htx⟩
  obtain ⟨sent, answer, hsent, hreply, hstored⟩ := hold
  refine ⟨sent, answer, hevolves.attempt hsent, hevolves.replies a answer hreply, ?_⟩
  intro status response hanswer
  obtain ⟨tx, htx, hstores⟩ := hstored status response hanswer
  exact ⟨tx, hevolves.transactions _ _ htx, hstores⟩

/-- Agreement, when every answer read was about the content sent. -/
theorem Ok.agreement_of_readOwn (h : Ok dep w) (hread : ReadOwn w.ledger)
    (hplain : ∀ i body, w.shared.bodies i = some body → Plain body.accountId) : Agreement w := by
  have hevents : ∀ row ∈ w.shared.gateway.events.rows,
      ∃ tx ∈ w.shared.account.transactions.rows, tx.fields = row.fields := by
    intro row hrow
    obtain ⟨sent, body, ⟨a, status, response, hreceived, hsent, hreply⟩, hbody, hforwards,
      hrecords⟩ := h.consistent.event_origin row hrow
    obtain ⟨sent', answer, hsent', hreply', hown⟩ := hread a hreceived
    cases hsent.symm.trans hsent'
    cases hreply.symm.trans hreply'
    obtain ⟨tx, htx, hstores⟩ := hown status response rfl
    exact ⟨tx, Table.mem_of_get htx,
      fields_agree (hplain _ body hbody) hforwards hrecords hstores⟩
  refine ⟨hevents, fun i response hanswered => ?_⟩
  obtain ⟨body, -, row, duplicate, hrow, hresponse, -⟩ := h.answer_true hanswered
  obtain ⟨tx, htx, hfields⟩ := hevents row (Table.mem_of_get hrow)
  exact ⟨tx, htx, hfields.trans (StoredEvent.fields_toResponse hresponse).symm⟩

/-- **Agreement.**  In every run in which each answer that is read is about the content that was
sent, the Gateway's events and the ledger agree. -/
theorem agreement {ls : List Label} (hrun : Run (step dep) initial ls w)
    (hplain : ∀ i body, w.shared.bodies i = some body → Plain body.accountId)
    (hown : Along (step dep) ReadsOwn initial ls) : Agreement w := by
  have hinitial : ReadOwn initial.ledger := fun a ha => absurd ha List.not_mem_nil
  obtain ⟨⟨hok, hread⟩, -⟩ := Along.preserves (I := fun u => Ok dep u ∧ ReadOwn u.ledger)
    (D := fun _ _ _ => True)
    (fun u l v hu hstep hown' =>
      ⟨⟨(hu.1.step hstep).1, hu.1.readOwn_step hstep hown' hu.2⟩, trivial⟩)
    hown hrun ⟨initial_ok, hinitial⟩
  exact hok.agreement_of_readOwn hread hplain

/-! ## When event ids are not reused -/

/-- Two submissions forward the same account id and payload. -/
def SameContent (body body' : EventRequest) : Prop :=
  body.accountId = body'.accountId ∧ body.type = body'.type ∧ body.amount = body'.amount ∧
    body.currency = body'.currency ∧ body.eventTimestamp = body'.eventTimestamp

/-- Every answer is about the content that was sent as long as an event id is not submitted with
two contents. -/
theorem along_readsOwn {ls : List Label} (hrun : Run (step dep) initial ls w)
    (hsame : ∀ i j body body', w.shared.bodies i = some body → w.shared.bodies j = some body' →
      body.eventId = body'.eventId → SameContent body body') :
    Along (step dep) ReadsOwn initial ls := by
  refine Run.along (I := Ok dep) (fun u l v hu hstep => (hu.step hstep).1) ?_ hrun initial_ok
  intro u l v ls' hok hstep hrest i c a k sent status response tx _ _ _ hsent _ htx
  obtain ⟨hok', hevolves⟩ := hok.step hstep
  have hlater := hevolves.trans (run_ok hok' hrest).2
  -- the attempt the transaction was stored for forwards the same content
  obtain ⟨sent', hsent', routed, request, now, hroute, hvalid, hstored⟩ :=
    hok.consistent.transaction_origin tx (Table.mem_of_get htx)
  obtain ⟨body, hbody, hforwards⟩ :=
    hok.consistent.attempt_origin sent (List.mem_of_getElem? hsent)
  obtain ⟨body', hbody', hforwards'⟩ := hok.consistent.attempt_origin sent' hsent'
  have hstores' : sent'.Stores tx := ⟨routed, request, now, hroute, hvalid, hstored⟩
  have hid : body.eventId = body'.eventId := by
    rw [← hforwards.eventId, ← hforwards'.eventId, ← hstores'.eventId]
    exact (Table.key_of_get htx).symm
  obtain ⟨haccount, htype, hamount, hcurrency, htimestamp⟩ :=
    hsame _ _ body body' (hlater.bodies _ _ hbody) (hlater.bodies _ _ hbody') hid
  obtain ⟨amount, hprint, hto, hpayload⟩ := hforwards
  obtain ⟨amount', hprint', hto', hpayload'⟩ := hforwards'
  rw [← hamount] at hprint'
  cases hprint.symm.trans hprint'
  have hpayloads : sent'.payload = sent.payload := by
    rw [hpayload, hpayload', EventRequest.payload, EventRequest.payload, hid, htype, hcurrency,
      htimestamp]
  refine ⟨routed, request, now, ?_, ?_, hstored⟩
  · rw [hto, haccount, ← hto']
    exact hroute
  · rw [← hpayloads]
    exact hvalid

theorem agreement_recorded : ∃ w, Agreement w ∧ w.shared.gateway.events.rows ≠ [] := by
  have hsome : (((recordingRun 0 0 sampleEvent).foldlM (step defaultDeployment) initial).map
      (·.shared.gateway.events.rows.length)) = some 1 := by decide +kernel
  obtain ⟨w, hrun, hlength⟩ := Option.map_eq_some_iff.mp hsome
  have hbodies := bodies_of_labels (P := fun i body => i = 0 ∧ body = sampleEvent) hrun
    fun i body h => by simpa [recordingRun] using h
  refine ⟨w, agreement hrun ?_ (along_readsOwn hrun ?_), ?_⟩
  · intro i body hbody
    rw [(hbodies i body hbody).2]
    decide
  · intro i j body body' hbody hbody' _
    rw [(hbodies i body hbody).2, (hbodies j body' hbody').2]
    exact ⟨rfl, rfl, rfl, rfl, rfl⟩
  · intro hnil
    rw [hnil] at hlength
    cases hlength

/-! ## When they are -/

/-- A credit of 150.00 to an alphanumeric account. -/
def firstVersion : EventRequest :=
  { sampleEvent with accountId := "acct123", accountId_stripped := ⟨"acct123", by decide⟩ }

/-- The same event, corrected to 200. -/
def correctedVersion : EventRequest :=
  { firstVersion with amount := ⟨false, 200, 0⟩, amount_positive := by decide }

/-- **The copy can be wrong.**  The first version is applied but answered 503; the correction is
answered by a replay of it, so the Gateway records 200 where the ledger has 150. -/
theorem copy_disagrees : ¬ ∀ (dep : Deployment) (w : World), Reachable dep w →
    (∀ i body, w.shared.bodies i = some body → body.accountId.toList.all Char.isAlphanum) →
    Agreement w := by
  intro h
  have hsome : (((resubmissionRun firstVersion correctedVersion).foldlM (step defaultDeployment)
      initial).map fun w => (w.shared.gateway.events.rows.map (·.amount),
        w.shared.account.transactions.rows.map (·.amount))) = some (["200"], ["150"]) := by
    decide +kernel
  obtain ⟨w, hrun, hrows⟩ := Option.map_eq_some_iff.mp hsome
  obtain ⟨hevents, htransactions⟩ := Prod.mk.inj hrows
  have hagree := h defaultDeployment w ⟨_, hrun⟩ ?_
  · have hmem : "200" ∈ w.shared.gateway.events.rows.map (·.amount) := by
      rw [hevents]
      exact List.mem_singleton_self _
    obtain ⟨row, hrow, hamount⟩ := List.mem_map.mp hmem
    obtain ⟨tx, htx, hfields⟩ := hagree.events_agree row hrow
    have htx' := List.mem_map_of_mem (f := (·.amount)) htx
    rw [htransactions, List.mem_singleton] at htx'
    have hsame : tx.amount = row.amount := congrArg LedgerFields.amount hfields
    rw [htx', hamount] at hsame
    exact absurd hsame (by decide)
  · refine bodies_of_labels hrun fun i body hi => ?_
    have hlabel : (i = 0 ∧ body = firstVersion) ∨ (i = 1 ∧ body = correctedVersion) := by
      simpa [resubmissionRun, unavailableRun] using hi
    rcases hlabel with ⟨-, rfl⟩ | ⟨-, rfl⟩
    · decide
    · decide

end World

end EventLedger
