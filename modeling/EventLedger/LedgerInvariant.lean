import EventLedger.LedgerSystem

/-!
# What holds between the two stores

The part of the shared state that recording is about is its `Ledger`: the two
tables, the messages between the services, and who submitted what.  It only ever
grows (`Evolves`), and `Consistent` says where everything in it comes from: a
transaction from an attempt, an attempt from a submission, an event from a
submission whose transaction is already there.

`Consistent` is the invariant and `Evolves` the rely of the two machines at the
end, in which the threads of the two services are proved safe.
-/
namespace EventLedger

open Program LabelledRun KeyedTable

/-- The tables, the messages and the history. -/
structure Ledger where
  events : Table StoredEvent.eventId
  transactions : Table StoredTransaction.eventId
  attempts : List Attempt
  replies : ℕ → Option AccountAnswer
  bodies : ℕ → Option EventRequest
  creators : List (String × ℕ)
  received : List ℕ

/-- The ledger of a shared state. -/
def Shared.ledger (s : Shared) : Ledger where
  events := s.gateway.events
  transactions := s.account.transactions
  attempts := s.attempts
  replies := s.replies
  bodies := s.bodies
  creators := s.creators
  received := s.received

/-- Nothing recorded is changed or forgotten. -/
structure Evolves (l l' : Ledger) : Prop where
  events : l.events.Grows l'.events
  transactions : l.transactions.Grows l'.transactions
  attempts : l.attempts <+: l'.attempts
  replies : ∀ a answer, l.replies a = some answer → l'.replies a = some answer
  bodies : ∀ i body, l.bodies i = some body → l'.bodies i = some body
  creators : ∀ c ∈ l.creators, c ∈ l'.creators
  received : ∀ a ∈ l.received, a ∈ l'.received

theorem Evolves.refl (l : Ledger) : Evolves l l :=
  ⟨Table.Grows.refl _, Table.Grows.refl _, List.prefix_rfl, fun _ _ h => h, fun _ _ h => h,
    fun _ h => h, fun _ h => h⟩

theorem Evolves.trans {l l' l'' : Ledger} (h : Evolves l l') (h' : Evolves l' l'') :
    Evolves l l'' where
  events := h.events.trans h'.events
  transactions := h.transactions.trans h'.transactions
  attempts := h.attempts.trans h'.attempts
  replies a answer ha := h'.replies a answer (h.replies a answer ha)
  bodies i body hi := h'.bodies i body (h.bodies i body hi)
  creators c hc := h'.creators c (h.creators c hc)
  received a ha := h'.received a (h.received a ha)

/-- An attempt keeps its position. -/
theorem Evolves.attempt {l l' : Ledger} (h : Evolves l l') {a : ℕ} {sent : Attempt}
    (ha : l.attempts[a]? = some sent) : l'.attempts[a]? = some sent := by
  obtain ⟨later, hlater⟩ := h.attempts
  rw [← hlater, List.getElem?_append_left (List.getElem?_eq_some_iff.mp ha).1]
  exact ha

/-! ## Where rows come from -/

/-- The attempt forwards the submission. -/
def Attempt.Forwards (sent : Attempt) (body : EventRequest) : Prop :=
  ∃ amount, amountStr body.amount = some amount ∧ sent.accountId = body.accountId ∧
    sent.payload = body.payload amount

/-- The row is one `submit_event` builds for the submission. -/
def EventRequest.Records (body : EventRequest) (row : StoredEvent) : Prop :=
  ∃ amount now, amountStr body.amount = some amount ∧ body.stored amount now = row

/-- The row is one `apply_transaction` builds for the attempt. -/
def Attempt.Stores (sent : Attempt) (tx : StoredTransaction) : Prop :=
  ∃ accountId body now, accountRoute sent.accountId = .account accountId ∧
    TransactionRequest.validate sent.payload = some body ∧ body.stored accountId now = some tx

theorem EventRequest.Records.eventId {body : EventRequest} {row : StoredEvent}
    (h : body.Records row) : row.eventId = body.eventId := by
  obtain ⟨amount, now, -, rfl⟩ := h
  rfl

theorem Attempt.Forwards.eventId {sent : Attempt} {body : EventRequest} (h : sent.Forwards body) :
    sent.payload.eventId = body.eventId := by
  obtain ⟨amount, -, -, hpayload⟩ := h
  rw [hpayload]
  rfl

/-- What a payload and the request it validates to have in common. -/
theorem Attempt.Stores.eventId {sent : Attempt} {tx : StoredTransaction} (h : sent.Stores tx) :
    tx.eventId = sent.payload.eventId := by
  obtain ⟨accountId, body, now, -, hvalid, hstored⟩ := h
  rw [TransactionRequest.stored_eventId hstored, (TransactionRequest.validate_fields hvalid).1]

/-- An answer to the attempt that names a transaction has been read. -/
def Accepted (l : Ledger) (sent : Attempt) : Prop :=
  ∃ a status response, a ∈ l.received ∧ l.attempts[a]? = some sent ∧
    l.replies a = some (.transaction status response)

theorem Accepted.stable {l l' : Ledger} {sent : Attempt} (h : Accepted l sent)
    (hevolves : Evolves l l') : Accepted l' sent := by
  obtain ⟨a, status, response, hread, hsent, hreply⟩ := h
  exact ⟨a, status, response, hevolves.received a hread, hevolves.attempt hsent,
    hevolves.replies a _ hreply⟩

/-- **The invariant.**  Everything in the ledger has its origin in the ledger. -/
structure Consistent (l : Ledger) : Prop where
  /-- Every attempt forwards a submission. -/
  attempt_origin : ∀ sent ∈ l.attempts, ∃ body,
    l.bodies sent.submission = some body ∧ sent.Forwards body
  /-- Every transaction was stored for an attempt. -/
  transaction_origin : ∀ tx ∈ l.transactions.rows, ∃ sent ∈ l.attempts, sent.Stores tx
  /-- Every event was recorded for a submission, on an answer that had been read. -/
  event_origin : ∀ row ∈ l.events.rows, ∃ sent body,
    Accepted l sent ∧ l.bodies sent.submission = some body ∧ sent.Forwards body ∧ body.Records row
  /-- Every event has its transaction. -/
  transaction_of_event : ∀ row ∈ l.events.rows, ∃ tx, l.transactions.get row.eventId = some tx
  /-- Only attempts are answered. -/
  reply_attempt : ∀ a answer, l.replies a = some answer → a < l.attempts.length
  /-- A transaction the Account Service answers with is the stored one. -/
  reply_stored : ∀ a status response sent, l.replies a = some (.transaction status response) →
    l.attempts[a]? = some sent → ∃ tx duplicate,
      l.transactions.get sent.payload.eventId = some tx ∧ tx.toResponse duplicate = response
  /-- An event has been inserted by its creator only. -/
  creator_unique : ∀ eventId i j, (eventId, i) ∈ l.creators → (eventId, j) ∈ l.creators → i = j
  /-- What has been created is there. -/
  creator_event : ∀ eventId i, (eventId, i) ∈ l.creators → ∃ row, l.events.get eventId = some row

/-! ## What operations do to the ledger -/

/-- The operations of a Gateway thread that write to the ledger. -/
def GatewayOp.writes : GatewayOp → Bool
  | .insertEvent _ => true
  | .send _ _ => true
  | .receive _ => true
  | _ => false

/-- The operations of a handler that write to the ledger. -/
def AccountOp.writes : AccountOp → Bool
  | .insertTransaction _ => true
  | _ => false

variable {dep : Deployment} {i a : ℕ}

theorem gatewayExec_ledger {c : Choice} {s s' : Shared} {o : GatewayOp} {r : o.Ret}
    (hquiet : o.writes = false) (h : gatewayExec dep i c s o = some (s', r)) :
    s'.ledger = s.ledger := by
  cases o with
  | insertEvent event => cases hquiet
  | send accountId payload => cases hquiet
  | receive attempt => cases hquiet
  | _ =>
    cases h
    rfl

theorem accountExec_ledger {env : Surroundings} {s s' : Shared} {o : AccountOp} {r : o.Ret}
    (hquiet : o.writes = false) (h : accountExec env s o = some (s', r)) :
    s'.ledger = s.ledger := by
  cases o with
  | insertTransaction tx => cases hquiet
  | _ =>
    cases h
    rfl

/-- What `insert_event` does to the ledger. -/
theorem gatewayExec_insertEvent {c : Choice} {s s' : Shared} {event : StoredEvent} {r : Bool}
    (h : gatewayExec dep i c s (.insertEvent event) = some (s', r)) :
    (r = true ∧ ∃ events, s.ledger.events.insert event = some events ∧
      s'.ledger = { s.ledger with events := events,
                                  creators := (event.eventId, i) :: s.ledger.creators }) ∨
    (r = false ∧ s' = s ∧ ∃ row, s.ledger.events.get event.eventId = some row) := by
  simp only [gatewayExec] at h
  split at h
  · rename_i db hdb
    obtain ⟨events, hevents, rfl⟩ := Option.map_eq_some_iff.mp hdb
    cases h
    exact Or.inl ⟨rfl, events, hevents, rfl⟩
  · rename_i hdb
    cases h
    exact Or.inr ⟨rfl, rfl, Table.insert_eq_none_iff.mp (Option.map_eq_none_iff.mp hdb)⟩

/-- What `insert_transaction` does to the ledger. -/
theorem accountExec_insertTransaction {env : Surroundings} {s s' : Shared}
    {tx : StoredTransaction} {r : Bool}
    (h : accountExec env s (.insertTransaction tx) = some (s', r)) :
    (r = true ∧ ∃ transactions, s.ledger.transactions.insert tx = some transactions ∧
      s'.ledger = { s.ledger with transactions := transactions }) ∨
    (r = false ∧ s' = s ∧ ∃ row, s.ledger.transactions.get tx.eventId = some row) := by
  simp only [accountExec] at h
  split at h
  · rename_i db hdb
    obtain ⟨transactions, htransactions, rfl⟩ := Option.map_eq_some_iff.mp hdb
    cases h
    exact Or.inl ⟨rfl, transactions, htransactions, rfl⟩
  · rename_i hdb
    cases h
    exact Or.inr ⟨rfl, rfl, Table.insert_eq_none_iff.mp (Option.map_eq_none_iff.mp hdb)⟩

/-- What sending does to the ledger. -/
theorem gatewayExec_send {c : Choice} {s s' : Shared} {accountId : String} {payload : TxPayload}
    {r : Option ℕ} (h : gatewayExec dep i c s (.send accountId payload) = some (s', r)) :
    (r = none ∧ s' = s) ∨ (r = some s.ledger.attempts.length ∧ s'.ledger =
      { s.ledger with attempts := s.ledger.attempts ++ [⟨i, accountId, payload⟩] }) := by
  simp only [gatewayExec] at h
  split at h
  · cases h
    exact Or.inl ⟨rfl, rfl⟩
  · cases h
    exact Or.inr ⟨rfl, rfl⟩

/-- What waiting for a response does to the ledger. -/
theorem gatewayExec_receive {c : Choice} {s s' : Shared} {a : ℕ} {r : Outcome}
    (h : gatewayExec dep i c s (.receive a) = some (s', r)) :
    (s' = s ∧ ∀ resp, r ≠ .response resp) ∨
    (c.network = .responds ∧ ∃ answer sent, s.ledger.replies a = some answer ∧
      s.ledger.attempts[a]? = some sent ∧
      r = .response (answer.toHttp (dep.validationDetail sent.payload)) ∧
      s'.ledger = { s.ledger with received := a :: s.ledger.received }) := by
  simp only [gatewayExec] at h
  split at h
  · cases h
    exact Or.inl ⟨rfl, fun _ h => by cases h⟩
  · cases h
    exact Or.inl ⟨rfl, fun _ h => by cases h⟩
  · rename_i hnetwork
    split at h
    · rename_i answer sent hreply hsent
      cases h
      exact Or.inr ⟨hnetwork, answer, sent, hreply, hsent, rfl, rfl⟩
    · cases h

/-- Writing where nothing was leaves everything that was. -/
theorem update_of_some {α : Type} {f : ℕ → Option α} {i j : ℕ} {x y : α} (hfresh : f i = none)
    (h : f j = some y) : Function.update f i (some x) j = some y := by
  have hne : j ≠ i := by
    rintro rfl
    rw [hfresh] at h
    cases h
  rw [Function.update_of_ne hne, h]

/-- What is read after a write was written or was there. -/
theorem eq_some_of_update {α : Type} {f : ℕ → Option α} {i j : ℕ} {x y : α}
    (h : Function.update f i (some x) j = some y) : (j = i ∧ x = y) ∨ f j = some y := by
  by_cases hj : j = i
  · rw [hj, Function.update_self] at h
    exact Or.inl ⟨hj, Option.some.inj h⟩
  · rw [Function.update_of_ne hj] at h
    exact Or.inr h

theorem evolves_insert_event {l : Ledger} {event : StoredEvent} {events}
    (h : l.events.insert event = some events) (creators : List (String × ℕ)) :
    Evolves l { l with events := events, creators := creators ++ l.creators } where
  events := Table.grows_insert h
  transactions := Table.Grows.refl _
  attempts := List.prefix_rfl
  replies _ _ h := h
  bodies _ _ h := h
  creators _ hc := List.mem_append_right _ hc
  received _ h := h

theorem evolves_insert_transaction {l : Ledger} {tx : StoredTransaction} {transactions}
    (h : l.transactions.insert tx = some transactions) :
    Evolves l { l with transactions := transactions } where
  events := Table.Grows.refl _
  transactions := Table.grows_insert h
  attempts := List.prefix_rfl
  replies _ _ h := h
  bodies _ _ h := h
  creators _ h := h
  received _ h := h

theorem evolves_send (l : Ledger) (sent : Attempt) :
    Evolves l { l with attempts := l.attempts ++ [sent] } where
  events := Table.Grows.refl _
  transactions := Table.Grows.refl _
  attempts := List.prefix_append _ _
  replies _ _ h := h
  bodies _ _ h := h
  creators _ h := h
  received _ h := h

theorem evolves_receive (l : Ledger) (a : ℕ) :
    Evolves l { l with received := a :: l.received } where
  events := Table.Grows.refl _
  transactions := Table.Grows.refl _
  attempts := List.prefix_rfl
  replies _ _ h := h
  bodies _ _ h := h
  creators _ h := h
  received _ h := List.mem_cons_of_mem _ h

theorem evolves_reply {l : Ledger} {a : ℕ} (answer : AccountAnswer) (h : l.replies a = none) :
    Evolves l { l with replies := Function.update l.replies a (some answer) } where
  events := Table.Grows.refl _
  transactions := Table.Grows.refl _
  attempts := List.prefix_rfl
  replies _ _ hb := update_of_some h hb
  bodies _ _ h := h
  creators _ h := h
  received _ h := h

theorem evolves_submit {l : Ledger} {i : ℕ} (body : EventRequest) (h : l.bodies i = none) :
    Evolves l { l with bodies := Function.update l.bodies i (some body) } where
  events := Table.Grows.refl _
  transactions := Table.Grows.refl _
  attempts := List.prefix_rfl
  replies _ _ h := h
  bodies _ _ hb := update_of_some h hb
  creators _ h := h
  received _ h := h

theorem gatewayExec_evolves {c : Choice} {s s' : Shared} {o : GatewayOp} {r : o.Ret}
    (h : gatewayExec dep i c s o = some (s', r)) : Evolves s.ledger s'.ledger := by
  cases hw : o.writes with
  | false =>
    rw [gatewayExec_ledger hw h]
    exact Evolves.refl _
  | true =>
    cases o with
    | insertEvent event =>
      rcases gatewayExec_insertEvent h with ⟨-, events, hevents, hs⟩ | ⟨-, rfl, -⟩
      · rw [hs]
        exact evolves_insert_event hevents [(event.eventId, i)]
      · exact Evolves.refl _
    | send accountId payload =>
      rcases gatewayExec_send h with ⟨-, rfl⟩ | ⟨-, hs⟩
      · exact Evolves.refl _
      · rw [hs]
        exact evolves_send _ _
    | receive a =>
      rcases gatewayExec_receive h with ⟨rfl, -⟩ | ⟨-, answer, sent, -, -, -, hs⟩
      · exact Evolves.refl _
      · rw [hs]
        exact evolves_receive _ a
    | _ => cases hw

theorem accountExec_evolves {env : Surroundings} {s s' : Shared} {o : AccountOp} {r : o.Ret}
    (h : accountExec env s o = some (s', r)) : Evolves s.ledger s'.ledger := by
  cases hw : o.writes with
  | false =>
    rw [accountExec_ledger hw h]
    exact Evolves.refl _
  | true =>
    cases o with
    | insertTransaction tx =>
      rcases accountExec_insertTransaction h with ⟨-, transactions, htx, hs⟩ | ⟨-, rfl, -⟩
      · rw [hs]
        exact evolves_insert_transaction htx
      · exact Evolves.refl _
    | _ => cases hw

/-! ## What keeps the ledger consistent -/

theorem Consistent.insertTransaction {l : Ledger} (h : Consistent l) {sent : Attempt}
    {tx : StoredTransaction} {transactions} (hsent : sent ∈ l.attempts) (hstores : sent.Stores tx)
    (hinsert : l.transactions.insert tx = some transactions) :
    Consistent { l with transactions := transactions } where
  attempt_origin := h.attempt_origin
  transaction_origin tx' htx' := by
    rcases (Table.mem_insert hinsert).mp htx' with htx' | rfl
    · exact h.transaction_origin tx' htx'
    · exact ⟨sent, hsent, hstores⟩
  event_origin := h.event_origin
  transaction_of_event row hrow := by
    obtain ⟨tx', htx'⟩ := h.transaction_of_event row hrow
    exact ⟨tx', Table.grows_insert hinsert _ _ htx'⟩
  reply_attempt := h.reply_attempt
  reply_stored a status response sent' hreply hsent' := by
    obtain ⟨tx', duplicate, htx', hresponse⟩ := h.reply_stored a status response sent' hreply hsent'
    exact ⟨tx', duplicate, Table.grows_insert hinsert _ _ htx', hresponse⟩
  creator_unique := h.creator_unique
  creator_event := h.creator_event

theorem Consistent.insertEvent {l : Ledger} (h : Consistent l) {sent : Attempt}
    {body : EventRequest} {row : StoredEvent} {tx : StoredTransaction} {events} (i : ℕ)
    (haccepted : Accepted l sent) (hbody : l.bodies sent.submission = some body)
    (hforwards : sent.Forwards body) (hrecords : body.Records row)
    (htx : l.transactions.get row.eventId = some tx) (hinsert : l.events.insert row = some events) :
    Consistent { l with events := events, creators := (row.eventId, i) :: l.creators } where
  attempt_origin := h.attempt_origin
  transaction_origin := h.transaction_origin
  event_origin row' hrow' := by
    rcases (Table.mem_insert hinsert).mp hrow' with hrow' | rfl
    · exact h.event_origin row' hrow'
    · exact ⟨sent, body, haccepted, hbody, hforwards, hrecords⟩
  transaction_of_event row' hrow' := by
    rcases (Table.mem_insert hinsert).mp hrow' with hrow' | rfl
    · exact h.transaction_of_event row' hrow'
    · exact ⟨tx, htx⟩
  reply_attempt := h.reply_attempt
  reply_stored := h.reply_stored
  creator_unique eventId j k hj hk := by
    -- the new creator cannot meet an old one: the event was not there
    have hfresh : ∀ m, (row.eventId, m) ∉ l.creators := by
      intro m hm
      obtain ⟨row', hrow'⟩ := h.creator_event _ m hm
      rw [Table.get_none_of_insert hinsert] at hrow'
      cases hrow'
    rcases List.mem_cons.mp hj with hj | hj <;> rcases List.mem_cons.mp hk with hk | hk
    · cases hj
      cases hk
      rfl
    · cases hj
      exact absurd hk (hfresh k)
    · cases hk
      exact absurd hj (hfresh j)
    · exact h.creator_unique eventId j k hj hk
  creator_event eventId j hj := by
    rcases List.mem_cons.mp hj with hj | hj
    · cases hj
      exact ⟨row, Table.get_insert_self hinsert⟩
    · obtain ⟨row', hrow'⟩ := h.creator_event eventId j hj
      exact ⟨row', Table.grows_insert hinsert _ _ hrow'⟩

theorem Consistent.send {l : Ledger} (h : Consistent l) {sent : Attempt} {body : EventRequest}
    (hbody : l.bodies sent.submission = some body) (hforwards : sent.Forwards body) :
    Consistent { l with attempts := l.attempts ++ [sent] } where
  attempt_origin sent' hsent' := by
    rcases List.mem_append.mp hsent' with hsent' | hsent'
    · exact h.attempt_origin sent' hsent'
    · rw [List.mem_singleton.mp hsent']
      exact ⟨body, hbody, hforwards⟩
  transaction_origin tx htx := by
    obtain ⟨sent', hsent', hstores⟩ := h.transaction_origin tx htx
    exact ⟨sent', List.mem_append_left _ hsent', hstores⟩
  event_origin row hrow := by
    obtain ⟨sent', other, haccepted, hrest⟩ := h.event_origin row hrow
    exact ⟨sent', other, haccepted.stable (evolves_send l sent), hrest⟩
  transaction_of_event := h.transaction_of_event
  reply_attempt a answer hreply := by
    rw [List.length_append]
    exact Nat.lt_add_right _ (h.reply_attempt a answer hreply)
  reply_stored a status response sent' hreply hsent' := by
    rw [List.getElem?_append_left (h.reply_attempt a _ hreply)] at hsent'
    exact h.reply_stored a status response sent' hreply hsent'
  creator_unique := h.creator_unique
  creator_event := h.creator_event

theorem Consistent.receive {l : Ledger} (h : Consistent l) (a : ℕ) :
    Consistent { l with received := a :: l.received } where
  attempt_origin := h.attempt_origin
  transaction_origin := h.transaction_origin
  event_origin row hrow := by
    obtain ⟨sent, body, haccepted, hrest⟩ := h.event_origin row hrow
    exact ⟨sent, body, haccepted.stable (evolves_receive l a), hrest⟩
  transaction_of_event := h.transaction_of_event
  reply_attempt := h.reply_attempt
  reply_stored := h.reply_stored
  creator_unique := h.creator_unique
  creator_event := h.creator_event

theorem Consistent.reply {l : Ledger} (h : Consistent l) {a : ℕ} {sent : Attempt}
    {answer : AccountAnswer} (hfresh : l.replies a = none) (hsent : l.attempts[a]? = some sent)
    (hstored : ∀ status response, answer = .transaction status response → ∃ tx duplicate,
      l.transactions.get sent.payload.eventId = some tx ∧ tx.toResponse duplicate = response) :
    Consistent { l with replies := Function.update l.replies a (some answer) } where
  attempt_origin := h.attempt_origin
  transaction_origin := h.transaction_origin
  event_origin row hrow := by
    obtain ⟨sent', body, haccepted, hrest⟩ := h.event_origin row hrow
    exact ⟨sent', body, haccepted.stable (evolves_reply answer hfresh), hrest⟩
  transaction_of_event := h.transaction_of_event
  reply_attempt b other hreply := by
    rcases eq_some_of_update hreply with ⟨rfl, -⟩ | hreply
    · exact (List.getElem?_eq_some_iff.mp hsent).1
    · exact h.reply_attempt b other hreply
  reply_stored b status response sent' hreply hsent' := by
    rcases eq_some_of_update hreply with ⟨rfl, hanswer⟩ | hreply
    · cases hsent.symm.trans hsent'
      exact hstored status response hanswer
    · exact h.reply_stored b status response sent' hreply hsent'
  creator_unique := h.creator_unique
  creator_event := h.creator_event

theorem Consistent.submit {l : Ledger} (h : Consistent l) {i : ℕ} (body : EventRequest)
    (hfresh : l.bodies i = none) :
    Consistent { l with bodies := Function.update l.bodies i (some body) } where
  attempt_origin sent hsent := by
    obtain ⟨other, hother, hforwards⟩ := h.attempt_origin sent hsent
    exact ⟨other, update_of_some hfresh hother, hforwards⟩
  transaction_origin := h.transaction_origin
  event_origin row hrow := by
    obtain ⟨sent, other, haccepted, hother, hrest⟩ := h.event_origin row hrow
    exact ⟨sent, other, haccepted, update_of_some hfresh hother, hrest⟩
  transaction_of_event := h.transaction_of_event
  reply_attempt := h.reply_attempt
  reply_stored := h.reply_stored
  creator_unique := h.creator_unique
  creator_event := h.creator_event

/-- The Gateway thread of submission `i`, among all others. -/
def gatewayMachine (dep : Deployment) (i : ℕ) :
    Machine Shared Choice GatewayOp GatewayOp.Ret where
  exec := gatewayExec dep i
  Inv s := Consistent s.ledger
  Rely s s' := Evolves s.ledger s'.ledger
  rely_refl s := Evolves.refl s.ledger
  rely_trans h h' := h.trans h'
  exec_rely h := gatewayExec_evolves h

/-- A handler of the Account Service, among all other threads. -/
def accountMachine : Machine Shared Surroundings AccountOp AccountOp.Ret where
  exec := accountExec
  Inv s := Consistent s.ledger
  Rely s s' := Evolves s.ledger s'.ledger
  rely_refl s := Evolves.refl s.ledger
  rely_trans h h' := h.trans h'
  exec_rely h := accountExec_evolves h

end EventLedger
