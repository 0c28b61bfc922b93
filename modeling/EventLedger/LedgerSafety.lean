import EventLedger.LedgerInvariant

/-!
# Every thread is safe

The rely–guarantee proof of both services' handlers: whatever other threads do
between two of its operations, a thread keeps the ledger consistent, and its
answer is true from the moment it is given.  The lemmas follow the programs, one
for each, from the operations up.

What a thread relies on is that the ledger only grows (`Evolves`): rows stay, attempts
stay, and a creator stays one.  What it guarantees is said of the answers of the
layer it belongs to — a handler's answer is about a stored row (`AnswerStored`), a
call's result is one of an attempt that was answered so (`CallReplied`), and a
submission's answer is about the rows of its event (`AnswerTrue`).
-/
namespace EventLedger

open Program KeyedTable

/-! ## Handlers of the Account Service -/

section Account

variable {α : Type} {Post : α → Shared → Prop} {s : Shared}

/-- One operation, from wherever others may have moved the ledger. -/
theorem account_act {o : AccountOp} {k : o.Ret → AccountProg α}
    (h : ∀ s' env s'' r, Evolves s.ledger s'.ledger → Consistent s'.ledger →
      accountExec env s' o = some (s'', r) →
      Consistent s''.ledger ∧ accountMachine.Safe Post (k r) s'') :
    accountMachine.Safe Post (.act o k) s :=
  Machine.safe_act h

/-- An operation that does not write: only others move the ledger. -/
theorem account_quiet {o : AccountOp} {k : o.Ret → AccountProg α} (hquiet : o.writes = false)
    (h : ∀ r s', Evolves s.ledger s'.ledger → Consistent s'.ledger →
      accountMachine.Safe Post (k r) s') : accountMachine.Safe Post (.act o k) s := by
  apply account_act
  intro s' env s'' r hrely hinv hexec
  have hsame : s''.ledger = s'.ledger := accountExec_ledger hquiet hexec
  have hinv' : Consistent s''.ledger := hsame ▸ hinv
  exact ⟨hinv', h r s'' (hsame ▸ hrely) hinv'⟩

/-- A lookup returns what the table holds at that moment. -/
theorem account_getTransaction {eventId : String}
    {k : Option StoredTransaction → AccountProg α}
    (h : ∀ s', Evolves s.ledger s'.ledger → Consistent s'.ledger →
      accountMachine.Safe Post (k (s'.ledger.transactions.get eventId)) s') :
    accountMachine.Safe Post (.act (.getTransaction eventId) k) s := by
  apply account_act
  intro s' env s'' r hrely hinv hexec
  cases hexec
  exact ⟨hinv, h s' hrely hinv⟩

/-- An insert either stores the row, or finds one under its key. -/
theorem account_insertTransaction {sent : Attempt} {tx : StoredTransaction}
    {k : Bool → AccountProg α} (hsent : sent ∈ s.ledger.attempts) (hstores : sent.Stores tx)
    (hnew : ∀ s', Evolves s.ledger s'.ledger → Consistent s'.ledger →
      s'.ledger.transactions.get tx.eventId = some tx → accountMachine.Safe Post (k true) s')
    (hlost : ∀ s' winner, Evolves s.ledger s'.ledger → Consistent s'.ledger →
      s'.ledger.transactions.get tx.eventId = some winner →
      accountMachine.Safe Post (k false) s') :
    accountMachine.Safe Post (.act (.insertTransaction tx) k) s := by
  apply account_act
  intro s' env s'' r hrely hinv hexec
  rcases accountExec_insertTransaction hexec with
    ⟨rfl, transactions, hinsert, hledger⟩ | ⟨rfl, rfl, winner, hwinner⟩
  · have hinv' : Consistent s''.ledger := by
      rw [hledger]
      exact hinv.insertTransaction (hrely.attempts.subset hsent) hstores hinsert
    have hget : s''.ledger.transactions.get tx.eventId = some tx := by
      rw [hledger]
      exact Table.get_insert_self hinsert
    exact ⟨hinv', hnew s'' (hrely.trans (accountExec_evolves hexec)) hinv' hget⟩
  · exact ⟨hinv, hlost s'' winner hrely hinv hwinner⟩

/-- What the answer about an attempt says is stored, is stored. -/
def AnswerStored (sent : Attempt) (answer : AccountAnswer) (s : Shared) : Prop :=
  ∀ status response, answer = .transaction status response → ∃ tx duplicate,
    s.ledger.transactions.get sent.payload.eventId = some tx ∧ tx.toResponse duplicate = response

theorem answerStored_done {sent : Attempt} {tx : StoredTransaction} (status : ℕ)
    (duplicate : Bool) (h : s.ledger.transactions.get sent.payload.eventId = some tx) :
    accountMachine.Safe (AnswerStored sent)
      (.done (.transaction status (tx.toResponse duplicate))) s := by
  intro s' hrely _ status' response heq
  cases heq
  exact ⟨tx, duplicate, hrely.transactions _ _ h, rfl⟩

theorem answerStored_other {sent : Attempt} {answer : AccountAnswer}
    (h : ∀ status response, answer ≠ .transaction status response) :
    accountMachine.Safe (AnswerStored sent) (.done answer) s :=
  fun _ _ _ status response heq => absurd heq (h status response)

theorem answerStored_error {sent : Attempt} :
    accountMachine.Safe (AnswerStored sent)
      (.act .traceId fun traceId => .done (.internalError traceId)) s :=
  account_quiet rfl fun _ _ _ _ => answerStored_other fun _ _ h => by cases h

theorem applyTransaction_safe {sent : Attempt} {accountId : String} {body : TransactionRequest}
    (hsent : sent ∈ s.ledger.attempts) (heventId : body.eventId = sent.payload.eventId)
    (hstores : ∀ now tx, body.stored accountId now = some tx → sent.Stores tx) :
    accountMachine.Safe (AnswerStored sent) (applyTransaction accountId body) s := by
  simp only [applyTransaction, AccountProg.getTransaction, AccountProg.insertTransaction,
    AccountProg.now, AccountProg.traceId, AccountProg.audit, Prog.perform_bind, Prog.pure_eq]
  apply account_getTransaction
  intro s₁ h₁ _
  cases hget : s₁.ledger.transactions.get body.eventId with
  | some existing =>
    apply account_quiet rfl
    intro _ s₂ h₂ _
    exact answerStored_done 200 true (heventId ▸ h₂.transactions _ _ hget)
  | none =>
    apply account_quiet rfl
    intro now s₂ h₂ _
    have hsent₂ : sent ∈ s₂.ledger.attempts := (h₁.trans h₂).attempts.subset hsent
    cases hstored : body.stored accountId now with
    | none => exact answerStored_error
    | some tx =>
      have htx : tx.eventId = sent.payload.eventId := (hstores now tx hstored).eventId
      refine account_insertTransaction hsent₂ (hstores now tx hstored) ?_ ?_
      · intro s₃ _ _ hnew
        apply account_quiet rfl
        intro _ s₄ h₄ _
        exact answerStored_done 201 false (htx ▸ h₄.transactions _ _ hnew)
      · intro s₃ winner _ _ hwinner
        apply account_getTransaction
        intro s₄ h₄ _
        have hfound : s₄.ledger.transactions.get body.eventId = some winner := by
          rw [heventId, ← htx]
          exact h₄.transactions _ _ hwinner
        apply account_quiet rfl
        intro _ s₅ h₅ _
        rw [hfound]
        exact answerStored_done 200 true (heventId ▸ h₅.transactions _ _ hfound)

/-- **The Account Service.**  Serving an attempt keeps the ledger consistent, and a transaction in
the answer is the stored one. -/
theorem serve_safe {sent : Attempt} (hsent : sent ∈ s.ledger.attempts) :
    accountMachine.Safe (AnswerStored sent) (serve sent.accountId sent.payload) s := by
  unfold serve
  cases hroute : accountRoute sent.accountId with
  | invalidUrl => exact answerStored_error
  | unmatched refusal => exact answerStored_other fun _ _ h => by cases h
  | account accountId =>
    cases hvalid : TransactionRequest.validate sent.payload with
    | none => exact answerStored_other fun _ _ h => by cases h
    | some body =>
      exact applyTransaction_safe hsent (TransactionRequest.validate_fields hvalid).1
        fun now tx htx => ⟨accountId, body, now, hroute, hvalid, htx⟩

/-- The only rows a handler inserts are its attempt's. -/
def OnlyStores (sent : Attempt) (o : AccountOp) : Prop :=
  ∀ tx, o = .insertTransaction tx → sent.Stores tx

theorem serve_onlyStores (sent : Attempt) :
    (serve sent.accountId sent.payload).All (OnlyStores sent) := by
  unfold serve
  cases hroute : accountRoute sent.accountId with
  | invalidUrl => simp [AccountProg.traceId, OnlyStores]
  | unmatched refusal => trivial
  | account accountId =>
    cases hvalid : TransactionRequest.validate sent.payload with
    | none => trivial
    | some body =>
      have hstores : ∀ now tx, body.stored accountId now = some tx → sent.Stores tx :=
        fun now tx htx => ⟨accountId, body, now, hroute, hvalid, htx⟩
      have hquiet : ∀ o : AccountOp, o.writes = false → OnlyStores sent o := by
        rintro o hquiet tx rfl
        cases hquiet
      simp only [applyTransaction, AccountProg.getTransaction, AccountProg.insertTransaction,
        AccountProg.now, AccountProg.traceId, AccountProg.audit, Prog.perform_bind, Prog.pure_eq]
      refine ⟨hquiet _ rfl, fun existing => ?_⟩
      cases existing with
      | some tx => exact ⟨hquiet _ rfl, fun _ => trivial⟩
      | none =>
        refine ⟨hquiet _ rfl, fun now => ?_⟩
        dsimp only
        cases hstored : body.stored accountId now with
        | none => exact ⟨hquiet _ rfl, fun _ => trivial⟩
        | some tx =>
          refine ⟨fun tx' htx' => ?_, fun inserted => ?_⟩
          · cases htx'
            exact hstores now tx hstored
          · cases inserted with
            | true => exact ⟨hquiet _ rfl, fun _ => trivial⟩
            | false =>
              refine ⟨hquiet _ rfl, fun winner => ⟨hquiet _ rfl, fun _ => ?_⟩⟩
              cases winner with
              | some _ => trivial
              | none => exact ⟨hquiet _ rfl, fun _ => trivial⟩

end Account

/-! ## Threads of the Gateway -/

section Gateway

variable {dep : Deployment} {i : ℕ} {α : Type} {Post : α → Shared → Prop} {s : Shared}

/-- One operation, from wherever others may have moved the ledger. -/
theorem gateway_act {o : GatewayOp} {k : o.Ret → GatewayProg α}
    (h : ∀ s' c s'' r, Evolves s.ledger s'.ledger → Consistent s'.ledger →
      gatewayExec dep i c s' o = some (s'', r) →
      Consistent s''.ledger ∧ (gatewayMachine dep i).Safe Post (k r) s'') :
    (gatewayMachine dep i).Safe Post (.act o k) s :=
  Machine.safe_act h

/-- An operation that does not write: only others move the ledger. -/
theorem gateway_quiet {o : GatewayOp} {k : o.Ret → GatewayProg α} (hquiet : o.writes = false)
    (h : ∀ r s', Evolves s.ledger s'.ledger → Consistent s'.ledger →
      (gatewayMachine dep i).Safe Post (k r) s') :
    (gatewayMachine dep i).Safe Post (.act o k) s := by
  apply gateway_act
  intro s' c s'' r hrely hinv hexec
  have hsame : s''.ledger = s'.ledger := gatewayExec_ledger hquiet hexec
  have hinv' : Consistent s''.ledger := hsame ▸ hinv
  exact ⟨hinv', h r s'' (hsame ▸ hrely) hinv'⟩

/-- A lookup returns what the table holds at that moment. -/
theorem gateway_getEvent {eventId : String} {k : Option StoredEvent → GatewayProg α}
    (h : ∀ s', Evolves s.ledger s'.ledger → Consistent s'.ledger →
      (gatewayMachine dep i).Safe Post (k (s'.ledger.events.get eventId)) s') :
    (gatewayMachine dep i).Safe Post (.act (.getEvent eventId) k) s := by
  apply gateway_act
  intro s' c s'' r hrely hinv hexec
  cases hexec
  exact ⟨hinv, h s' hrely hinv⟩

/-- An insert either stores the row under the thread's name, or finds one under its key. -/
theorem gateway_insertEvent {sent : Attempt} {body : EventRequest} {row : StoredEvent}
    {tx : StoredTransaction} {k : Bool → GatewayProg α} (haccepted : Accepted s.ledger sent)
    (hbody : s.ledger.bodies sent.submission = some body) (hforwards : sent.Forwards body)
    (hrecords : body.Records row) (htx : s.ledger.transactions.get row.eventId = some tx)
    (hnew : ∀ s', Evolves s.ledger s'.ledger → Consistent s'.ledger →
      s'.ledger.events.get row.eventId = some row → (row.eventId, i) ∈ s'.ledger.creators →
      (gatewayMachine dep i).Safe Post (k true) s')
    (hlost : ∀ s' winner, Evolves s.ledger s'.ledger → Consistent s'.ledger →
      s'.ledger.events.get row.eventId = some winner →
      (gatewayMachine dep i).Safe Post (k false) s') :
    (gatewayMachine dep i).Safe Post (.act (.insertEvent row) k) s := by
  apply gateway_act
  intro s' c s'' r hrely hinv hexec
  rcases gatewayExec_insertEvent hexec with
    ⟨rfl, events, hinsert, hledger⟩ | ⟨rfl, rfl, winner, hwinner⟩
  · have hinv' : Consistent s''.ledger := by
      rw [hledger]
      exact hinv.insertEvent i (haccepted.stable hrely) (hrely.bodies _ _ hbody) hforwards
        hrecords (hrely.transactions _ _ htx) hinsert
    refine ⟨hinv', hnew s'' (hrely.trans (gatewayExec_evolves hexec)) hinv' ?_ ?_⟩
    · rw [hledger]
      exact Table.get_insert_self hinsert
    · rw [hledger]
      exact List.mem_cons_self
  · exact ⟨hinv, hlost s'' winner hrely hinv hwinner⟩

/-- Sending either refuses the URL or leaves the attempt among those sent. -/
theorem gateway_send {body : EventRequest} {accountId : String} {payload : TxPayload}
    {k : Option ℕ → GatewayProg α} (hbody : s.ledger.bodies i = some body)
    (hforwards : (Attempt.mk i accountId payload).Forwards body)
    (hrefused : ∀ s', (gatewayMachine dep i).Safe Post (k none) s')
    (hsent : ∀ s' a, Evolves s.ledger s'.ledger → Consistent s'.ledger →
      s'.ledger.attempts[a]? = some ⟨i, accountId, payload⟩ →
      (gatewayMachine dep i).Safe Post (k (some a)) s') :
    (gatewayMachine dep i).Safe Post (.act (.send accountId payload) k) s := by
  apply gateway_act
  intro s' c s'' r hrely hinv hexec
  rcases gatewayExec_send hexec with ⟨rfl, rfl⟩ | ⟨rfl, hledger⟩
  · exact ⟨hinv, hrefused s''⟩
  · have hinv' : Consistent s''.ledger := by
      rw [hledger]
      exact hinv.send (hrely.bodies _ _ hbody) hforwards
    refine ⟨hinv', hsent s'' _ (hrely.trans (gatewayExec_evolves hexec)) hinv' ?_⟩
    rw [hledger, List.getElem?_append_right (le_refl _), Nat.sub_self]
    rfl

/-- The response is the answer given to an attempt of this thread, and has been read. -/
def RepliedTo (dep : Deployment) (sent : Attempt) (resp : HttpResponse) (s : Shared) : Prop :=
  ∃ (a : ℕ) (answer : AccountAnswer), a ∈ s.ledger.received ∧ s.ledger.attempts[a]? = some sent ∧
    s.ledger.replies a = some answer ∧ resp = answer.toHttp (dep.validationDetail sent.payload)

theorem RepliedTo.stable {sent : Attempt} {resp : HttpResponse} {s' : Shared}
    (h : RepliedTo dep sent resp s) (hrely : Evolves s.ledger s'.ledger) :
    RepliedTo dep sent resp s' := by
  obtain ⟨a, answer, hread, hsent, hreply, hresp⟩ := h
  exact ⟨a, answer, hrely.received a hread, hrely.attempt hsent, hrely.replies a answer hreply,
    hresp⟩

/-- A response that is received is the answer to the attempt waited for. -/
def OutcomeReplied (dep : Deployment) (sent : Attempt) (outcome : Outcome) (s : Shared) : Prop :=
  ∀ resp, outcome = .response resp → RepliedTo dep sent resp s

theorem receive_safe {a : ℕ} {sent : Attempt} (hsent : s.ledger.attempts[a]? = some sent) :
    (gatewayMachine dep i).Safe (OutcomeReplied dep sent) (GatewayProg.receive a) s := by
  apply gateway_act
  intro s' c s'' r hrely hinv hexec
  rcases gatewayExec_receive hexec with
    ⟨rfl, hnone⟩ | ⟨-, answer, sent', hreply, hsent', rfl, hledger⟩
  · exact ⟨hinv, Machine.safe_done fun _ _ _ resp hresp => absurd hresp (hnone resp)⟩
  · cases (hrely.attempt hsent).symm.trans hsent'
    have hinv' : Consistent s''.ledger := by
      rw [hledger]
      exact hinv.receive a
    have hread : RepliedTo dep sent (answer.toHttp (dep.validationDetail sent.payload)) s'' := by
      refine ⟨a, answer, ?_, ?_, ?_, rfl⟩
      · rw [hledger]
        exact List.mem_cons_self
      · rw [hledger]
        exact hsent'
      · rw [hledger]
        exact hreply
    refine ⟨hinv', Machine.safe_done fun t ht _ resp hresp => ?_⟩
    cases hresp
    exact hread.stable ht

/-- Anything but a response says nothing. -/
theorem outcomeReplied_other {sent : Attempt} {outcome : Outcome}
    (h : ∀ resp, outcome ≠ .response resp) :
    (gatewayMachine dep i).Safe (OutcomeReplied dep sent) (.done outcome) s :=
  fun _ _ _ resp heq => absurd heq (h resp)

theorem request_safe {body : EventRequest} {accountId : String} {payload : TxPayload}
    (hbody : s.ledger.bodies i = some body)
    (hforwards : (Attempt.mk i accountId payload).Forwards body) :
    (gatewayMachine dep i).Safe (OutcomeReplied dep ⟨i, accountId, payload⟩)
      (request accountId payload) s := by
  refine gateway_send hbody hforwards (fun _ => ?_) fun s' a _ _ hsent => receive_safe hsent
  exact outcomeReplied_other fun _ h => by cases h

theorem attemptOnce_safe {sent : Attempt} {request : GatewayProg Outcome}
    (hrequest : ∀ s', Evolves s.ledger s'.ledger →
      (gatewayMachine dep i).Safe (OutcomeReplied dep sent) request s') :
    (gatewayMachine dep i).Safe (OutcomeReplied dep sent) (attemptOnce request) s := by
  simp only [attemptOnce, GatewayProg.fault, Prog.perform_bind, Prog.pure_eq]
  apply gateway_quiet rfl
  intro fault₁ s₁ h₁ _
  split
  · exact outcomeReplied_other fun _ h => by cases h
  · refine gateway_quiet rfl fun fault₂ s₂ h₂ _ => ?_
    split
    · exact outcomeReplied_other fun _ h => by cases h
    · exact hrequest s₂ (h₁.trans h₂)

/-- What a call returns: the answer to one of its attempts if it succeeded, a 4xx if it was
rejected. -/
def CallReplied (dep : Deployment) (sent : Attempt) (result : CallResult) (s : Shared) : Prop :=
  match result with
  | .response resp => resp.status < 400 ∧ RepliedTo dep sent resp s
  | .clientError resp => 400 ≤ resp.status ∧ resp.status < 500
  | _ => True

theorem retryLoop_safe {sent : Attempt} {request : GatewayProg Outcome} {maxRetries : ℕ}
    (left : ℕ) (hrequest : ∀ s', Evolves s.ledger s'.ledger →
      (gatewayMachine dep i).Safe (OutcomeReplied dep sent) request s') :
    (gatewayMachine dep i).Safe (CallReplied dep sent) (retryLoop request maxRetries left) s := by
  induction left generalizing s with
  | zero => exact gateway_quiet rfl fun _ _ _ _ => Machine.safe_done fun _ _ _ => trivial
  | succ left ih =>
    -- the rest of the loop, from wherever it is entered
    have hrest : ∀ s', Evolves s.ledger s'.ledger → (gatewayMachine dep i).Safe
        (CallReplied dep sent) (retryLoop request maxRetries left) s' :=
      fun s' hs => ih fun t ht => hrequest t (hs.trans ht)
    have hbackoff : ∀ s', Evolves s.ledger s'.ledger → (gatewayMachine dep i).Safe
        (CallReplied dep sent) (backoffAndRetry maxRetries (maxRetries - left)
          (retryLoop request maxRetries left)) s' := by
      intro s' hs
      unfold backoffAndRetry
      split
      · split
        · exact Machine.safe_done fun _ _ _ => trivial
        · exact gateway_quiet rfl fun _ t ht _ => hrest t (hs.trans ht)
      · exact hrest s' hs
    apply Machine.Safe.bind (attemptOnce_safe hrequest)
    intro outcome s₁ h₁ _ houtcome
    cases outcome with
    | raised => exact Machine.safe_done fun _ _ _ => trivial
    | transportError => exact hbackoff s₁ h₁
    | response resp =>
      have hreplied := houtcome resp rfl
      by_cases hok : resp.status < 400
      · simp only [if_pos hok]
        exact gateway_quiet rfl fun _ s₂ h₂ _ => Machine.safe_done fun t ht _ =>
          ⟨hok, hreplied.stable (h₂.trans ht)⟩
      · by_cases hclient : resp.status < 500
        · simp only [if_neg hok, if_pos hclient]
          refine gateway_quiet rfl fun _ _ _ _ => Machine.safe_done fun _ _ _ => ?_
          split
          · trivial
          · exact ⟨not_lt.mp hok, hclient⟩
        · simp only [if_neg hok, if_neg hclient]
          exact hbackoff s₁ h₁

theorem call_safe {sent : Attempt} {request : GatewayProg Outcome} {maxRetries : ℕ}
    (hrequest : ∀ s', Evolves s.ledger s'.ledger →
      (gatewayMachine dep i).Safe (OutcomeReplied dep sent) request s') :
    (gatewayMachine dep i).Safe (CallReplied dep sent) (call request maxRetries) s := by
  simp only [call, GatewayProg.allowRequest, Prog.perform_bind, Prog.pure_eq]
  apply gateway_quiet rfl
  intro ok s₁ h₁ _
  cases ok with
  | true => exact retryLoop_safe _ fun s₂ h₂ => hrequest s₂ (h₁.trans h₂)
  | false => exact Machine.safe_done fun _ _ _ => trivial

/-- What `apply_transaction` of the client returns: on success, the transaction is there and the
answer that says so has been read. -/
def ClientApplied (sent : Attempt) (result : CallResult) (s : Shared) : Prop :=
  match result with
  | .response _ => Accepted s.ledger sent ∧
      ∃ tx, s.ledger.transactions.get sent.payload.eventId = some tx
  | .clientError resp => 400 ≤ resp.status ∧ resp.status < 500
  | _ => True

theorem clientApplyTransaction_safe {body : EventRequest} {accountId : String}
    {payload : TxPayload} {maxRetries : ℕ} (hbody : s.ledger.bodies i = some body)
    (hforwards : (Attempt.mk i accountId payload).Forwards body) :
    (gatewayMachine dep i).Safe (ClientApplied ⟨i, accountId, payload⟩)
      (clientApplyTransaction maxRetries accountId payload) s := by
  refine Machine.Safe.bind (call_safe fun s' h => request_safe (h.bodies _ _ hbody) hforwards)
    fun result s₁ _ hinv hresult => ?_
  cases result with
  | unavailable => exact Machine.safe_done fun _ _ _ => trivial
  | raised => exact Machine.safe_done fun _ _ _ => trivial
  | clientError resp => exact Machine.safe_done fun _ _ _ => hresult
  | response resp =>
    obtain ⟨hstatus, a, answer, hread, hsent, hreply, rfl⟩ := hresult
    by_cases hjson : (answer.toHttp (dep.validationDetail payload)).jsonRaises = true
    · rw [parsed, if_pos hjson]
      exact Machine.safe_done fun _ _ _ => trivial
    · -- a parsed response below 400 can only come from the handler
      rw [parsed, if_neg hjson]
      obtain ⟨status, response, rfl⟩ := AccountAnswer.transaction_of_accepted hstatus
        (Bool.not_eq_true _ ▸ hjson)
      obtain ⟨tx, duplicate, htx, -⟩ := hinv.reply_stored a status response _ hreply hsent
      have haccepted : Accepted s₁.ledger ⟨i, accountId, payload⟩ :=
        ⟨a, status, response, hread, hsent, hreply⟩
      exact Machine.safe_done fun t ht _ =>
        ⟨haccepted.stable ht, tx, ht.transactions _ _ htx⟩

/-- What an answer says is on record, is on record; and a 201 is the creator's. -/
def AnswerTrue (dep : Deployment) (i : ℕ) (body : EventRequest) (answer : Answer) (s : Shared) :
    Prop :=
  match answer with
  | .recorded status response => ∃ row duplicate,
      s.ledger.events.get body.eventId = some row ∧
      row.toResponse dep.loads duplicate = some response ∧
      ((status = 200 ∧ duplicate = true) ∨
        (status = 201 ∧ duplicate = false ∧ (body.eventId, i) ∈ s.ledger.creators))
  | .rejected status _ => 400 ≤ status ∧ status < 500
  | _ => True

theorem unhandled_safe {body : EventRequest} :
    (gatewayMachine dep i).Safe (AnswerTrue dep i body) unhandled s :=
  gateway_quiet rfl fun _ _ _ _ => Machine.safe_done fun _ _ _ => trivial

theorem respond_safe {body : EventRequest} {event : StoredEvent} {status : ℕ} {duplicate : Bool}
    (hget : s.ledger.events.get body.eventId = some event)
    (hstatus : (status = 200 ∧ duplicate = true) ∨
      (status = 201 ∧ duplicate = false ∧ (body.eventId, i) ∈ s.ledger.creators)) :
    (gatewayMachine dep i).Safe (AnswerTrue dep i body)
      (respond dep.loads status event duplicate) s := by
  unfold respond
  split
  · rename_i response hresponse
    apply Machine.safe_done
    intro t ht _
    refine ⟨event, duplicate, ht.events _ _ hget, hresponse, hstatus.imp_right ?_⟩
    rintro ⟨h201, hdup, hcreator⟩
    exact ⟨h201, hdup, ht.creators _ hcreator⟩
  · exact unhandled_safe

theorem persistEvent_safe {body : EventRequest} {amount : String} {tx : StoredTransaction}
    {sent : Attempt} (haccepted : Accepted s.ledger sent)
    (hbody : s.ledger.bodies sent.submission = some body) (hforwards : sent.Forwards body)
    (hamount : amountStr body.amount = some amount)
    (htx : s.ledger.transactions.get body.eventId = some tx) :
    (gatewayMachine dep i).Safe (AnswerTrue dep i body) (persistEvent dep.loads body amount) s := by
  simp only [persistEvent, GatewayProg.now, GatewayProg.insertEvent, GatewayProg.audit,
    GatewayProg.getEvent, Prog.perform_bind]
  apply gateway_quiet rfl
  intro now s₁ h₁ _
  refine gateway_insertEvent (haccepted.stable h₁) (h₁.bodies _ _ hbody) hforwards
    ⟨amount, now, hamount, rfl⟩ (h₁.transactions _ _ htx) ?_ ?_
  · intro s₂ _ _ hget hcreator
    apply gateway_quiet rfl
    intro _ s₃ h₃ _
    exact respond_safe (h₃.events _ _ hget) (Or.inr ⟨rfl, rfl, h₃.creators _ hcreator⟩)
  · intro s₂ winner _ _ hwinner
    apply gateway_getEvent
    intro s₃ h₃ _
    have hfound : s₃.ledger.events.get body.eventId = some winner := h₃.events _ _ hwinner
    rw [hfound]
    exact respond_safe hfound (Or.inl ⟨rfl, rfl⟩)

/-- **The Gateway.**  Handling a submission keeps the ledger consistent, and its answer is true. -/
theorem submitEvent_safe {body : EventRequest} (hbody : s.ledger.bodies i = some body) :
    (gatewayMachine dep i).Safe (AnswerTrue dep i body)
      (submitEvent dep.loads dep.maxRetries body) s := by
  simp only [submitEvent, GatewayProg.getEvent, GatewayProg.audit, GatewayProg.circuitState,
    Prog.perform_bind, Prog.pure_eq]
  apply gateway_getEvent
  intro s₁ h₁ _
  cases hget : s₁.ledger.events.get body.eventId with
  | some existing =>
    apply gateway_quiet rfl
    intro _ s₂ h₂ _
    exact respond_safe (h₂.events _ _ hget) (Or.inl ⟨rfl, rfl⟩)
  | none =>
    cases hamount : amountStr body.amount with
    | none => exact unhandled_safe
    | some amount =>
      have hforwards : (Attempt.mk i body.accountId (body.payload amount)).Forwards body :=
        ⟨amount, hamount, rfl, rfl⟩
      have hbody₁ := h₁.bodies _ _ hbody
      refine Machine.Safe.bind (clientApplyTransaction_safe hbody₁ hforwards)
        fun result s₂ h₂ _ hresult => ?_
      cases result with
      | unavailable =>
        exact gateway_quiet rfl fun _ _ _ _ => gateway_quiet rfl fun _ _ _ _ =>
          Machine.safe_done fun _ _ _ => trivial
      | clientError resp =>
        apply gateway_quiet rfl
        intro _ s₃ _ _
        split
        · exact Machine.safe_done fun _ _ _ => hresult
        · exact unhandled_safe
      | raised => exact unhandled_safe
      | response resp =>
        obtain ⟨haccepted, tx, htx⟩ := hresult
        exact persistEvent_safe haccepted (h₂.bodies _ _ hbody₁) hforwards hamount htx

end Gateway

end EventLedger
