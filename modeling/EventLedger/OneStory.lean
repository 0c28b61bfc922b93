import EventLedger.BalanceSnapshots
import EventLedger.DownstreamErrors
import EventLedger.SubmissionAudit
import EventLedger.TableService

/-!
# All answers about an event tell one story

In both services a handler looks the event up, inserts a row if there is none, and
looks it up again if another handler was faster.  The creator answers from memory
and everybody else from the table.  In every interleaving of any requests, the
second lookup finds the winner's row, all successes show the one stored row, and
only its creator says that it is new (`account_one_story`, `gateway_one_story`).
-/
namespace EventLedger

open Program Prog Service LabelledRun KeyedTable TableEvent DecimalFloat

/-! ## The Account Service -/

/-- An operation of `apply_transaction` as one on the table. -/
def transactionEvent : Event AccountOp AccountOp.Ret → Option (TableEvent StoredTransaction String)
  | ⟨.getTransaction eventId, found⟩ => some (.looked eventId found)
  | ⟨.insertTransaction tx, created⟩ => some (.added tx created)
  | _ => none

/-- The same among the operations of all endpoints. -/
def accountTableEvent :
    Event AccountApiOp AccountApiOp.Ret → Option (TableEvent StoredTransaction String)
  | ⟨.core op, r⟩ => transactionEvent ⟨op, r⟩
  | _ => none

theorem account_onTable :
    accountService.OnTable AccountDB.transactions accountTableEvent := by
  intro env db o db' r h
  cases o with
  | core op =>
    cases op with
    | insertTransaction tx =>
      simp only [accountService, accountApiExec, accountDbExec, Option.some.injEq] at h
      cases hinsert : db.transactions.insert tx with
      | some table =>
        simp only [AccountDB.insertTransaction, hinsert, Option.map_some] at h
        cases h
        exact hinsert
      | none =>
        simp only [AccountDB.insertTransaction, hinsert, Option.map_none] at h
        cases h
        exact ⟨rfl, hinsert⟩
    | getTransaction eventId =>
      cases h
      exact ⟨rfl, rfl⟩
    | _ =>
      cases h
      exact rfl
  | _ =>
    cases h
    exact rfl

/-- The answer shows the row the handler went on with, and is no success if there is none. -/
def AccountAnswer.Shows (result : Option (StoredTransaction × Bool)) (answer : AccountAnswer) :
    Prop :=
  match result with
  | some (tx, duplicate) =>
    answer = .transaction (if duplicate then 200 else 201) (tx.toResponse duplicate)
  | none => ∀ status response, answer ≠ .transaction status response

/-- A request to apply a transaction to an account, with a body that validates and an amount that
can be written. -/
def Applicable (accountId : String) (payload : TxPayload) : Prop :=
  ∃ routed body, accountRoute accountId = .account routed ∧
    TransactionRequest.validate payload = some body ∧ (amountStr body.amount).isSome

/-- An insert has been refused, and there was no row then. -/
def LosesRow (es : List (TableEvent StoredTransaction String)) : Prop :=
  ∃ tx, es = [.looked tx.eventId none, .added tx false, .looked tx.eventId none]

theorem applyTransaction_story (accountId : String) (body : TransactionRequest) :
    (applyTransaction accountId body).Ensures fun answer es => ∃ result,
      GetOrCreate StoredTransaction.eventId body.eventId (es.filterMap transactionEvent) result ∧
        answer.Shows result ∧
        (result = none → (amountStr body.amount).isSome →
          LosesRow (es.filterMap transactionEvent)) := by
  simp only [applyTransaction, AccountProg.getTransaction, AccountProg.audit, AccountProg.now,
    AccountProg.insertTransaction, AccountProg.traceId, perform_bind, pure_eq]
  refine ensures_act.mpr fun existing => ?_
  cases existing with
  | some existing =>
    exact ensures_act.mpr fun _ => ensures_done.mpr
      ⟨some (existing, true), .found existing, rfl, fun h => by cases h⟩
  | none =>
    refine ensures_act.mpr fun now => ?_
    cases hstored : body.stored accountId now with
    | none =>
      have hunwritten : (amountStr body.amount).isSome ≠ true := by
        rw [Option.map_eq_none_iff.mp hstored]
        simp
      exact ensures_act.mpr fun t => ensures_done.mpr
        ⟨none, .abandoned, fun status response h => (by cases h), fun _ h => absurd h hunwritten⟩
    | some tx =>
      have hkey := TransactionRequest.stored_eventId hstored
      refine ensures_act.mpr fun created => ?_
      cases created with
      | true =>
        exact ensures_act.mpr fun _ => ensures_done.mpr
          ⟨some (tx, false), .created tx hkey, rfl, fun h => by cases h⟩
      | false =>
        refine ensures_act.mpr fun winner => ensures_act.mpr fun _ => ?_
        cases winner with
        | some winner =>
          exact ensures_done.mpr
            ⟨some (winner, true), .raced tx winner hkey, rfl, fun h => by cases h⟩
        | none =>
          exact ensures_act.mpr fun t => ensures_done.mpr
            ⟨none, .lost tx hkey, fun status response h => (by cases h),
              fun _ _ => ⟨tx, hkey ▸ rfl⟩⟩

theorem serve_story (accountId : String) (payload : TxPayload) :
    (serve accountId payload).Ensures fun answer es => ∃ result,
      GetOrCreate StoredTransaction.eventId payload.eventId (es.filterMap transactionEvent) result ∧
        answer.Shows result ∧
        (result = none → Applicable accountId payload →
          LosesRow (es.filterMap transactionEvent)) := by
  unfold serve
  cases hroute : accountRoute accountId with
  | account routed =>
    cases hvalid : TransactionRequest.validate payload with
    | some body =>
      rw [← (TransactionRequest.validate_fields hvalid).1]
      refine (applyTransaction_story routed body).mono ?_
      rintro answer es ⟨result, hstory, hshows, hloses⟩
      refine ⟨result, hstory, hshows, fun hnone happlicable => ?_⟩
      obtain ⟨_, body', -, hbody, hamount⟩ := happlicable
      cases hvalid.symm.trans hbody
      exact hloses hnone hamount
    | none =>
      refine ensures_done.mpr ⟨none, .refused, fun status response h => (by cases h), ?_⟩
      rintro - ⟨_, body, -, hbody, -⟩
      cases hvalid.symm.trans hbody
  | unmatched refusal =>
    refine ensures_done.mpr ⟨none, .refused, fun status response h => (by cases h), ?_⟩
    rintro - ⟨routed, _, hrouted, -⟩
    cases hroute.symm.trans hrouted
  | invalidUrl =>
    refine ensures_act.mpr fun t => ensures_done.mpr
      ⟨none, .refused, fun status response h => (by cases h), ?_⟩
    rintro - ⟨routed, _, hrouted, -⟩
    cases hroute.symm.trans hrouted

/-- What a handler of the Account Service sees of the table, and what it says. -/
def AccountTells (req : AccountRequest) (reply : AccountReply)
    (es : List (Event AccountApiOp AccountApiOp.Ret)) : Prop :=
  match req with
  | .post accountId payload => ∃ result answer,
    GetOrCreate StoredTransaction.eventId payload.eventId (es.filterMap accountTableEvent) result ∧
      reply = .posted answer ∧ answer.Shows result ∧
      (result = none → Applicable accountId payload → LosesRow (es.filterMap accountTableEvent))
  | _ => (∀ e ∈ es, e.1.Reads) ∧ ∀ status response, reply ≠ .posted (.transaction status response)

theorem handleAccount_noTransaction {req : AccountRequest}
    (h : ∀ accountId payload, req ≠ .post accountId payload) :
    (handleAccount req).Ensures fun reply _ =>
      ∀ status response, reply ≠ .posted (.transaction status response) := by
  have hother : ∀ reply : AccountReply, (∀ answer, reply ≠ .posted answer) →
      ∀ status response, reply ≠ .posted (.transaction status response) :=
    fun reply hreply status response => hreply _
  cases req with
  | post accountId payload => exact absurd rfl (h accountId payload)
  | malformed => exact ensures_done.mpr fun status response h => by cases h
  | balance accountId =>
    refine ensures_act.mpr fun txs => ensures_act.mpr fun total => ?_
    cases total with
    | some total => exact ensures_done.mpr (hother _ fun answer h => by cases h)
    | none => exact ensures_act.mpr fun t => ensures_done.mpr (hother _ fun answer h => by cases h)
  | account accountId =>
    refine ensures_act.mpr fun txs => ensures_act.mpr fun total => ?_
    cases total with
    | some total => exact ensures_done.mpr (hother _ fun answer h => by cases h)
    | none => exact ensures_act.mpr fun t => ensures_done.mpr (hother _ fun answer h => by cases h)
  | health =>
    exact ensures_act.mpr fun _ => ensures_act.mpr fun _ =>
      ensures_done.mpr (hother _ fun answer h => by cases h)
  | metrics => exact ensures_act.mpr fun _ => ensures_done.mpr (hother _ fun answer h => by cases h)
  | audit account limit =>
    refine ensures_act.mpr fun entries => ?_
    cases entries with
    | some entries => exact ensures_done.mpr (hother _ fun answer h => by cases h)
    | none => exact ensures_act.mpr fun t => ensures_done.mpr (hother _ fun answer h => by cases h)

theorem account_tells (req : AccountRequest) :
    (handleAccount req).Ensures fun reply es => AccountTells req reply es := by
  have hreads : (∀ accountId payload, req ≠ .post accountId payload) →
      (handleAccount req).Ensures fun reply es => (∀ e ∈ es, e.1.Reads) ∧
        ∀ status response, reply ≠ .posted (.transaction status response) := fun h =>
    Ensures.and (handleAccount_all h).ensures (handleAccount_noTransaction h)
  cases req with
  | post accountId payload =>
    refine Ensures.bind (AccountApiProg.inCore_ensures (serve_story accountId payload)) ?_
    rintro answer _ ⟨es, rfl, result, hstory, hshows, hloses⟩
    have hview : (es.map inAccountApi ++ []).filterMap accountTableEvent =
        es.filterMap transactionEvent := by
      rw [List.append_nil, List.filterMap_map]
      rfl
    refine ensures_done.mpr ⟨result, answer, ?_, rfl, hshows, ?_⟩
    · exact hview ▸ hstory
    · exact hview ▸ hloses
  | _ => exact hreads fun accountId payload h => by cases h

/-- The answer of the thread is a 201 about the event. -/
def AccountThread.saysCreated (eventId : String) (th : AccountThread) : Bool :=
  match th.rest with
  | .done (.posted (.transaction status response)) =>
    status = 201 ∧ response.eventId = eventId
  | _ => false

/-- All answers about an event tell one story, in a state of the service started on `db`, whatever
accounts and bodies they were asked with: the one row there is was created by one of the calls or
before all of them, every success shows it as it is stored, and its creator alone calls it new. -/
structure AccountOneStory (db : AccountDB) (t : AccountState) : Prop where
  /-- Who loses the insert race finds the winner's row. -/
  finds_winner : ∀ th ∈ t.threads, (th.events.filterMap accountTableEvent).Pairwise fun e e' =>
    ∀ tx, e = .added tx false → e' ≠ .looked tx.eventId none
  /-- Every success shows the one stored row, as new or as a duplicate. -/
  shows_row : ∀ th ∈ t.threads, ∀ accountId payload status response,
    th.request = .post accountId payload → th.Answered (.posted (.transaction status response)) →
      ∃ tx, t.store.getTransaction payload.eventId = some tx ∧
        ((status = 201 ∧ response = tx.toResponse false) ∨
          (status = 200 ∧ response = tx.toResponse true))
  /-- It is shown as new by the call that has created it. -/
  created_iff : ∀ th ∈ t.threads, ∀ accountId payload status response,
    th.request = .post accountId payload → th.Answered (.posted (.transaction status response)) →
      (status = 201 ↔ ∃ tx, .added tx true ∈ th.events.filterMap accountTableEvent ∧
        tx.eventId = payload.eventId)
  /-- A request that can be applied is answered with a success, so by the two above it is told 200
  if it has not created the row. -/
  succeeds : ∀ th ∈ t.threads, ∀ accountId payload reply, th.request = .post accountId payload →
    Applicable accountId payload → th.Answered reply →
      ∃ status response, reply = .posted (.transaction status response)
  /-- At most one call says that it has created the row. -/
  one_creator : ∀ eventId, t.threads.countP (AccountThread.saysCreated eventId) ≤ 1
  /-- When all calls are over, exactly one does. -/
  creator_answers : t.Quiet → ∀ eventId, db.getTransaction eventId = none →
    t.store.getTransaction eventId ≠ none →
      t.threads.countP (AccountThread.saysCreated eventId) = 1

theorem AccountAnswer.Shows.transaction {result : Option (StoredTransaction × Bool)} {status : ℕ}
    {response : TransactionResponse}
    (h : (AccountAnswer.transaction status response).Shows result) :
    ∃ tx duplicate, result = some (tx, duplicate) ∧ status = (if duplicate then 200 else 201) ∧
      response = tx.toResponse duplicate := by
  cases result with
  | none => exact absurd rfl (h status response)
  | some pair =>
    obtain ⟨tx, duplicate⟩ := pair
    cases h
    exact ⟨tx, duplicate, rfl, rfl, rfl⟩

theorem creates_nothing {th : AccountThread} (h : ∀ e ∈ th.events, e.1.Reads) {eventId : String} :
    ¬ th.Creates accountTableEvent StoredTransaction.eventId eventId := by
  rintro ⟨tx, hmem, -⟩
  obtain ⟨⟨op, r⟩, he, hview⟩ := List.mem_filterMap.mp hmem
  have hreads := h _ he
  cases op with
  | core op =>
    cases op with
    | insertTransaction tx => exact hreads
    | _ => cases hview
  | _ => cases hview

/-- A 201 is told by whoever has created the row, once it has answered. -/
theorem AccountTells.saysCreated_iff {th : AccountThread} {reply : AccountReply} {eventId : String}
    (h : AccountTells th.request reply th.events) (hreply : th.Answered reply) :
    th.saysCreated eventId ↔ th.Creates accountTableEvent StoredTransaction.eventId eventId := by
  have hother : (∀ e ∈ th.events, e.1.Reads) →
      (∀ status response, reply ≠ .posted (.transaction status response)) →
        (th.saysCreated eventId ↔
          th.Creates accountTableEvent StoredTransaction.eventId eventId) := by
    intro hreads hno
    refine ⟨fun htold => ?_, fun hcreates => absurd hcreates (creates_nothing hreads)⟩
    unfold AccountThread.saysCreated at htold
    rw [show th.rest = .done reply from hreply] at htold
    split at htold
    · rename_i status response heq
      exact absurd (done.inj heq) (hno status response)
    · cases htold
  cases hreq : th.request with
  | post accountId payload =>
    rw [hreq] at h
    obtain ⟨result, answer, hstory, rfl, hshows, -⟩ := h
    rw [creates_iff_result hstory, AccountThread.saysCreated,
      show th.rest = .done (.posted answer) from hreply]
    constructor
    · intro htold
      split at htold
      · rename_i status response heq
        cases heq
        obtain ⟨tx, duplicate, rfl, rfl, rfl⟩ := hshows.transaction
        obtain ⟨hstatus, hid⟩ := of_decide_eq_true htold
        cases duplicate with
        | true => cases hstatus
        | false => exact ⟨tx, rfl, hid⟩
      · cases htold
    · rintro ⟨tx, rfl, hid⟩
      cases hshows
      exact decide_eq_true ⟨rfl, hid⟩
  | _ =>
    rw [hreq] at h
    exact hother h.1 h.2

/-- A success is about the row the handler went on with. -/
theorem AccountTells.transaction {accountId : String} {payload : TxPayload} {status : ℕ}
    {response : TransactionResponse} {es : List (Event AccountApiOp AccountApiOp.Ret)}
    (h : AccountTells (.post accountId payload) (.posted (.transaction status response)) es) :
    ∃ tx duplicate, GetOrCreate StoredTransaction.eventId payload.eventId
        (es.filterMap accountTableEvent) (some (tx, duplicate)) ∧
      status = (if duplicate then 200 else 201) ∧ response = tx.toResponse duplicate := by
  obtain ⟨result, answer, hstory, heq, hshows, -⟩ := h
  cases heq
  obtain ⟨tx, duplicate, rfl, hstatus, hresponse⟩ := hshows.transaction
  exact ⟨tx, duplicate, hstory, hstatus, hresponse⟩

/-- **One story in the Account Service.**  In every run, of any requests in any interleaving. -/
theorem account_one_story (db : AccountDB) (ls : List AccountLabel) (t : AccountState)
    (h : Run accountService.step (.initial db) ls t) : AccountOneStory db t := by
  have hsees := (run_onTable account_onTable h).2
  have htells : ∀ th ∈ t.threads, ∀ reply, th.Answered reply →
      AccountTells th.request reply th.events :=
    fun th hth => (run_keeps account_tells h th hth).2
  have hcreates : ∀ eventId, ∀ th ∈ t.threads, AccountThread.saysCreated eventId th →
      th.Creates accountTableEvent StoredTransaction.eventId eventId := by
    intro eventId th hth htold
    cases hrest : th.rest with
    | done reply => exact ((htells th hth reply hrest).saysCreated_iff hrest).mp htold
    | act o k => simp [AccountThread.saysCreated, hrest] at htold
  constructor
  · intro th hth
    refine (hsees th hth).ordered.imp ?_
    rintro e e' hprecedes tx rfl
    exact hprecedes tx.eventId rfl
  · -- the row a handler goes on with is still there
    intro th hth accountId payload status response hreq hanswered
    obtain ⟨tx, duplicate, hstory, rfl, rfl⟩ :=
      AccountTells.transaction (hreq ▸ htells th hth _ hanswered)
    refine ⟨tx, (hsees th hth).get_of_result hstory rfl, ?_⟩
    cases duplicate with
    | true => exact Or.inr ⟨rfl, rfl⟩
    | false => exact Or.inl ⟨rfl, rfl⟩
  · intro th hth accountId payload status response hreq hanswered
    obtain ⟨tx, duplicate, hstory, rfl, rfl⟩ :=
      AccountTells.transaction (hreq ▸ htells th hth _ hanswered)
    refine Iff.trans ?_ (creates_iff_result hstory).symm
    cases duplicate with
    | true => simp
    | false => simpa using key_of_created hstory rfl
  · intro th hth accountId payload reply hreq happlicable hanswered
    have htell := htells th hth _ hanswered
    rw [hreq] at htell
    obtain ⟨result, answer, -, rfl, hshows, hloses⟩ := htell
    cases result with
    | some result =>
      obtain ⟨tx, duplicate⟩ := result
      exact ⟨_, _, congrArg AccountReply.posted hshows⟩
    | none =>
      -- the lookup that finds nothing would come after the lost race
      obtain ⟨tx, hseen⟩ := hloses rfl happlicable
      have hordered := (hsees th hth).ordered
      rw [hseen] at hordered
      have hprecedes := (List.pairwise_cons.mp (List.pairwise_cons.mp hordered).2).1 _
        (List.mem_singleton_self _)
      exact absurd rfl (hprecedes tx.eventId rfl)
  · exact fun eventId => countP_creators_le account_onTable h (hcreates eventId)
  · intro hquiet eventId hnew hrow
    refine countP_creators_eq account_onTable h (fun th hth => ⟨hcreates eventId th hth, ?_⟩) hnew
      (Option.ne_none_iff_exists'.mp hrow)
    intro hcreated
    obtain ⟨reply, hreply⟩ := hquiet th hth
    exact ((htells th hth reply hreply).saysCreated_iff hreply).mpr hcreated

/-! ## The Gateway -/

/-- An operation of `submit_event` as one on the table. -/
def submittedEvent : Event GatewayOp GatewayOp.Ret → Option (TableEvent StoredEvent String)
  | ⟨.getEvent eventId, found⟩ => some (.looked eventId found)
  | ⟨.insertEvent event, created⟩ => some (.added event created)
  | _ => none

/-- The same among the operations of all endpoints. -/
def gatewayTableEvent : Event ApiOp ApiOp.Ret → Option (TableEvent StoredEvent String)
  | ⟨.core op, r⟩ => submittedEvent ⟨op, r⟩
  | _ => none

/-- What a lookup has found. -/
theorem getEvent_of_looked {es : List (Event ApiOp ApiOp.Ret)} {k : String} {event : StoredEvent}
    (h : .looked k (some event) ∈ es.filterMap gatewayTableEvent) :
    ⟨.core (.getEvent k), some event⟩ ∈ es := by
  obtain ⟨⟨o, r⟩, he, hview⟩ := List.mem_filterMap.mp h
  cases o with
  | core op =>
    cases op with
    | getEvent eventId =>
      cases hview
      exact he
    | _ => cases hview
  | _ => cases hview

/-- What an insertion has added. -/
theorem insertEvent_of_added {es : List (Event ApiOp ApiOp.Ret)} {event : StoredEvent}
    (h : .added event true ∈ es.filterMap gatewayTableEvent) :
    ⟨.core (.insertEvent event), true⟩ ∈ es := by
  obtain ⟨⟨o, r⟩, he, hview⟩ := List.mem_filterMap.mp h
  cases o with
  | core op =>
    cases op with
    | insertEvent row =>
      cases hview
      exact he
    | _ => cases hview
  | _ => cases hview

theorem gateway_onTable (cfg : GatewaySettings) :
    (gatewayService cfg).OnTable GatewayDB.events gatewayTableEvent := by
  intro env db o db' r h
  cases o with
  | core op =>
    cases op with
    | insertEvent event =>
      simp only [gatewayService, apiExec, gatewayDbExec, Option.some.injEq] at h
      cases hinsert : db.events.insert event with
      | some table =>
        simp only [GatewayDB.insertEvent, hinsert, Option.map_some] at h
        cases h
        exact hinsert
      | none =>
        simp only [GatewayDB.insertEvent, hinsert, Option.map_none] at h
        cases h
        exact ⟨rfl, hinsert⟩
    | getEvent eventId =>
      cases h
      exact ⟨rfl, rfl⟩
    | _ =>
      cases h
      exact rfl
  | _ =>
    cases h
    exact rfl

variable {loads : String → Option Json} {cfg : GatewaySettings}

/-- The answer shows the row the handler went on with, if that can be shown, and is no success if
there is none. -/
def Answer.Shows (loads : String → Option Json) (result : Option (StoredEvent × Bool))
    (answer : Answer) : Prop :=
  match result with
  | some (row, duplicate) =>
    match row.toResponse loads duplicate with
    | some response => answer = .recorded (if duplicate then 200 else 201) response
    | none => ∃ traceId, answer = .internalError traceId
  | none => 400 ≤ answer.status

theorem submittedEvent_of_call {es : List (Event GatewayOp GatewayOp.Ret)}
    (h : ∀ e ∈ es, e.1.OfCall) : es.filterMap submittedEvent = [] := by
  rw [List.filterMap_eq_nil_iff]
  rintro ⟨op, r⟩ he
  have hop : op.OfCall := h _ he
  cases op with
  | getEvent eventId => exact absurd hop id
  | insertEvent event => exact absurd hop id
  | _ => rfl

theorem respond_story (row : StoredEvent) (duplicate : Bool) :
    (respond loads (if duplicate then 200 else 201) row duplicate).Ensures fun answer es =>
      es.filterMap submittedEvent = [] ∧ answer.Shows loads (some (row, duplicate)) := by
  simp only [respond, Answer.Shows]
  cases row.toResponse loads duplicate with
  | some response => exact ensures_done.mpr ⟨rfl, rfl⟩
  | none => exact ensures_act.mpr fun t => ensures_done.mpr ⟨rfl, t, rfl⟩

/-- What `submit_event` sees of the table, and what it answers. -/
def SubmitTells (loads : String → Option Json) (eventId : String) (answer : Answer)
    (seen : List (TableEvent StoredEvent String)) : Prop :=
  ∃ result, GetOrCreate StoredEvent.eventId eventId seen result ∧ answer.Shows loads result

theorem persistEvent_story (body : EventRequest) (amount : String) :
    (persistEvent loads body amount).Ensures fun answer es =>
      SubmitTells loads body.eventId answer
        (.looked body.eventId none :: es.filterMap submittedEvent) := by
  simp only [persistEvent, GatewayProg.now, GatewayProg.insertEvent, GatewayProg.getEvent,
    GatewayProg.audit, perform_bind]
  refine ensures_act.mpr fun now => ensures_act.mpr fun created => ?_
  cases created with
  | true =>
    refine ensures_act.mpr fun _ => (respond_story _ false).mono ?_
    rintro answer es ⟨hes, hshows⟩
    refine ⟨some (body.stored amount now, false), ?_, hshows⟩
    show GetOrCreate StoredEvent.eventId body.eventId
      (.looked body.eventId none :: .added _ true :: es.filterMap submittedEvent) _
    rw [hes]
    exact .created (body.stored amount now) rfl
  | false =>
    refine ensures_act.mpr fun winner => ?_
    cases winner with
    | some winner =>
      refine (respond_story winner true).mono ?_
      rintro answer es ⟨hes, hshows⟩
      refine ⟨some (winner, true), ?_, hshows⟩
      show GetOrCreate StoredEvent.eventId body.eventId
        (.looked body.eventId none :: .added _ false :: .looked body.eventId (some winner) ::
          es.filterMap submittedEvent) _
      rw [hes]
      exact .raced (body.stored amount now) winner rfl
    | none =>
      refine ensures_act.mpr fun t => ensures_done.mpr ⟨none, ?_, ?_⟩
      · exact .lost (body.stored amount now) rfl
      · exact show 400 ≤ 500 by decide

theorem submitEvent_story (maxRetries : ℕ) (body : EventRequest) :
    (submitEvent loads maxRetries body).Ensures fun answer es =>
      SubmitTells loads body.eventId answer (es.filterMap submittedEvent) := by
  simp only [submitEvent, GatewayProg.getEvent, perform_bind]
  refine ensures_act.mpr fun existing => ?_
  cases existing with
  | some existing =>
    refine ensures_act.mpr fun _ => (respond_story existing true).mono ?_
    rintro answer es ⟨hes, hshows⟩
    refine ⟨some (existing, true), ?_, hshows⟩
    show GetOrCreate StoredEvent.eventId body.eventId
      (.looked body.eventId (some existing) :: es.filterMap submittedEvent) _
    rw [hes]
    exact .found existing
  | none =>
    have habandoned : ∀ answer : Answer, 400 ≤ answer.status →
        SubmitTells loads body.eventId answer [.looked body.eventId none] :=
      fun answer hstatus => ⟨none, .abandoned, hstatus⟩
    have herror : 400 ≤ 500 := by decide
    cases amountStr body.amount with
    | none => exact ensures_act.mpr fun t => ensures_done.mpr (habandoned _ herror)
    | some amount =>
      have hall : (clientApplyTransaction maxRetries body.accountId (body.payload amount)).All
          GatewayOp.OfCall := clientApplyTransaction_all body.accountId (body.payload amount)
      refine Ensures.bind (Ensures.and hall.ensures (clientApplyTransaction_ends maxRetries
        body.accountId (body.payload amount))) ?_
      rintro result es ⟨hes, hends⟩
      have hseen : ∀ es', (es ++ es').filterMap submittedEvent = es'.filterMap submittedEvent := by
        intro es'
        rw [List.filterMap_append, submittedEvent_of_call hes, List.nil_append]
      have hcons : ∀ es', ((⟨.getEvent body.eventId, none⟩ :: (es ++ es') :
          List (Event GatewayOp GatewayOp.Ret)).filterMap submittedEvent) =
            .looked body.eventId none :: es'.filterMap submittedEvent := by
        intro es'
        rw [← hseen es']
        rfl
      simp only [hcons]
      cases result with
      | response resp => exact persistEvent_story body amount
      | unavailable =>
        exact ensures_act.mpr fun _ => ensures_act.mpr fun _ =>
          ensures_done.mpr (habandoned .unavailable (by decide))
      | clientError resp =>
        refine ensures_act.mpr fun _ => ?_
        cases resp.safeJson with
        | some detail => exact ensures_done.mpr (habandoned _ hends.of_clientError.2.1)
        | none => exact ensures_act.mpr fun t => ensures_done.mpr (habandoned _ herror)
      | raised => exact ensures_act.mpr fun t => ensures_done.mpr (habandoned _ herror)

/-- The response shows the row the handler went on with, if that can be shown and serialised, and is
no success if there is none. -/
def HttpResponse.Shows (cfg : GatewaySettings) (result : Option (StoredEvent × Bool))
    (reply : HttpResponse) : Prop :=
  match result with
  | some (row, duplicate) =>
    match row.toResponse cfg.loads duplicate with
    | some response =>
      Rendered (if duplicate then 200 else 201) (response.serialized cfg.serializes) reply
    | none => reply.status = 500
  | none => 400 ≤ reply.status

/-- What a handler of the Gateway sees of the table, and what it says. -/
def GatewayTells (cfg : GatewaySettings) (req : ApiRequest) (reply : HttpResponse)
    (es : List (Event ApiOp ApiOp.Ret)) : Prop :=
  match req with
  | .submit body => ∃ result,
      GetOrCreate StoredEvent.eventId body.eventId (es.filterMap gatewayTableEvent) result ∧
        reply.Shows cfg result
  | _ => ∀ e ∈ es, ∀ row ok, e ≠ ⟨.core (.insertEvent row), ok⟩

theorem Rendered.status_of_error {status : ℕ} {body : Option Json} {reply : HttpResponse}
    (h : Rendered status body reply) (hstatus : 400 ≤ status) : 400 ≤ reply.status := by
  rcases h with ⟨value, -, rfl⟩ | ⟨-, h500⟩
  · exact hstatus
  · omega

theorem Answer.Shows.rendered {cfg : GatewaySettings} {result : Option (StoredEvent × Bool)}
    {answer : Answer} {reply : HttpResponse} (h : answer.Shows cfg.loads result)
    (hreply : Rendered answer.status (answer.body cfg.serializes) reply) :
    reply.Shows cfg result := by
  cases result with
  | none => exact hreply.status_of_error h
  | some pair =>
    obtain ⟨row, duplicate⟩ := pair
    simp only [Answer.Shows, HttpResponse.Shows] at h ⊢
    split at h
    · rw [h] at hreply
      exact hreply
    · obtain ⟨t, rfl⟩ := h
      exact status_of_internalError hreply

theorem postEvent_story (cfg : GatewaySettings) (body : EventRequest) :
    (postEvent cfg body).Ensures fun reply es => GatewayTells cfg (.submit body) reply es := by
  refine Ensures.bind (ApiProg.inCore_ensures (submitEvent_story cfg.maxRetries body)) ?_
  rintro answer _ ⟨es, rfl, result, hstory, hshows⟩
  refine render_ensures.mono ?_
  rintro reply es' ⟨htrace, hrendered⟩
  refine ⟨result, ?_, hshows.rendered hrendered⟩
  have hnil : es'.filterMap gatewayTableEvent = [] := by
    rw [List.filterMap_eq_nil_iff]
    rintro ⟨op, r⟩ he
    cases htrace _ he
    rfl
  rw [List.filterMap_append, hnil, List.append_nil, List.filterMap_map]
  exact hstory

/-- An operation that inserts no event. -/
def ApiOp.InsertsNothing : ApiOp → Prop
  | .core (.insertEvent _) => False
  | _ => True

theorem ApiOp.Reads.insertsNothing {o : ApiOp} (h : o.Reads) : o.InsertsNothing := by
  cases o with
  | core op =>
    cases op with
    | insertEvent event => exact h
    | _ => trivial
  | _ => trivial

/-- Only `submit_event` inserts. -/
theorem handleApi_insertsNothing (cfg : GatewaySettings) {req : ApiRequest}
    (h : ∀ body, req ≠ .submit body) : (handleApi cfg req).All ApiOp.InsertsNothing := by
  have hreads : ∀ {p : ApiProg HttpResponse}, p.All ApiOp.Reads → p.All ApiOp.InsertsNothing :=
    fun hp => hp.mono fun _ => ApiOp.Reads.insertsNothing
  cases req with
  | submit body => exact absurd rfl (h body)
  | invalid endpoint errors => exact ⟨trivial, fun _ => hreads (renderJson_all _ _)⟩
  | setFault mode => exact ⟨trivial, fun _ => ⟨trivial, fun _ => hreads getFaultHandler_all⟩⟩
  | _ => exact hreads (handleApi_all cfg id)

theorem gateway_tells (cfg : GatewaySettings) (req : ApiRequest) :
    (handleApi cfg req).Ensures fun reply es => GatewayTells cfg req reply es := by
  have hother : (∀ body, req ≠ .submit body) → (handleApi cfg req).Ensures fun _ es =>
      ∀ e ∈ es, ∀ row ok, e ≠ ⟨.core (.insertEvent row), ok⟩ := by
    intro h
    refine (handleApi_insertsNothing cfg h).ensures.mono ?_
    rintro _ es hes e he row ok rfl
    exact hes _ he
  cases req with
  | submit body => exact postEvent_story cfg body
  | _ => exact hother fun body h => by cases h

/-! ### The story -/

/-- A request of the Gateway and its handler. -/
abbrev GatewayThread := Thread ApiRequest ApiOp ApiOp.Ret HttpResponse

/-- The thread has answered a submission of the event with 201. -/
def GatewayThread.saysCreated (eventId : String) (th : GatewayThread) : Bool :=
  match th.request, th.rest with
  | .submit body, .done reply => reply.status = 201 ∧ body.eventId = eventId
  | _, _ => false

/-- The thread has answered a submission of the event with a success. -/
def GatewayThread.Succeeds (eventId : String) (reply : HttpResponse) (th : GatewayThread) : Prop :=
  (∃ body, th.request = .submit body ∧ body.eventId = eventId) ∧ th.Answered reply ∧
    200 ≤ reply.status ∧ reply.status < 300

/-- All answers about an event tell one story, in a state of the service started on `db`.  A success
is an answer in the 200s to a submission of it; a submission may also be refused downstream, or end
in an error because its row cannot be shown, and then it tells nothing. -/
structure GatewayOneStory (cfg : GatewaySettings) (db : GatewayDB) (t : GatewayState) : Prop where
  /-- Who loses the insert race finds the winner's row. -/
  finds_winner : ∀ th ∈ t.threads, (th.events.filterMap gatewayTableEvent).Pairwise fun e e' =>
    ∀ row, e = .added row false → e' ≠ .looked row.eventId none
  /-- Every success shows the one stored row, as new or as a duplicate. -/
  shows_row : ∀ th ∈ t.threads, ∀ eventId reply, GatewayThread.Succeeds eventId reply th →
    ∃ row response, t.store.getEvent eventId = some row ∧
      row.toResponse cfg.loads false = some response ∧
      (reply = ⟨201, .json response.shown⟩ ∨
        reply = ⟨200, .json { response with duplicate := true }.shown⟩)
  /-- It is shown as new by the call that has created it. -/
  created_iff : ∀ th ∈ t.threads, ∀ eventId reply, GatewayThread.Succeeds eventId reply th →
    (reply.status = 201 ↔ ∃ row, .added row true ∈ th.events.filterMap gatewayTableEvent ∧
      row.eventId = eventId)
  /-- At most one call says that it has created the row. -/
  one_creator : ∀ eventId, t.threads.countP (GatewayThread.saysCreated eventId) ≤ 1
  /-- When all calls are over and one has succeeded, exactly one does. -/
  creator_answers : t.Quiet → ∀ eventId, db.getEvent eventId = none →
    (∃ th ∈ t.threads, ∃ reply, GatewayThread.Succeeds eventId reply th) →
      t.threads.countP (GatewayThread.saysCreated eventId) = 1

/-- The response to a duplicate differs in nothing else. -/
theorem toResponse_duplicate (row : StoredEvent) (duplicate : Bool) :
    row.toResponse loads duplicate = (row.toResponse loads false).map
      fun response => { response with duplicate := duplicate } := by
  rw [StoredEvent.toResponse, StoredEvent.toResponse, Option.map_map]
  rfl

/-- A success shows a row that can be shown. -/
theorem HttpResponse.Shows.of_success {cfg : GatewaySettings} {row : StoredEvent} {duplicate : Bool}
    {reply : HttpResponse} (h : reply.Shows cfg (some (row, duplicate)))
    (hsuccess : reply.status < 300) :
    ∃ response, row.toResponse cfg.loads false = some response ∧
      response.dumpable cfg.serializes ∧
      reply = ⟨if duplicate then 200 else 201, .json { response with duplicate := duplicate }.shown⟩
    := by
  simp only [HttpResponse.Shows] at h
  rw [toResponse_duplicate] at h
  cases hresponse : row.toResponse cfg.loads false with
  | some response =>
    rw [hresponse] at h
    rcases h with ⟨value, hvalue, rfl⟩ | ⟨-, h500⟩
    · obtain ⟨hdumpable, rfl⟩ := EventResponse.serialized_eq_some_iff.mp hvalue
      exact ⟨response, rfl, hdumpable, rfl⟩
    · omega
  | none =>
    rw [hresponse] at h
    have h500 : reply.status = 500 := h
    omega

/-- A row that can be shown is shown. -/
theorem HttpResponse.Shows.eq_shown {cfg : GatewaySettings} {row : StoredEvent} {duplicate : Bool}
    {reply : HttpResponse} {response : EventResponse} (h : reply.Shows cfg (some (row, duplicate)))
    (hresponse : row.toResponse cfg.loads false = some response)
    (hdumpable : response.dumpable cfg.serializes) :
    reply = ⟨if duplicate then 200 else 201, .json { response with duplicate := duplicate }.shown⟩
    := by
  simp only [HttpResponse.Shows] at h
  rw [toResponse_duplicate, hresponse, Option.map_some] at h
  rcases h with ⟨value, hvalue, rfl⟩ | ⟨hnot, -⟩
  · obtain ⟨-, rfl⟩ := EventResponse.serialized_eq_some_iff.mp hvalue
    rfl
  · rw [EventResponse.serialized_eq_none_iff] at hnot
    cases hnot.symm.trans hdumpable

theorem response_not_duplicate {row : StoredEvent} {response : EventResponse}
    (h : row.toResponse loads false = some response) :
    { response with duplicate := false } = response := by
  rw [← (StoredEvent.toResponse_fields h).2.2.2.2.2.2]

/-- What a thread that has succeeded went on with. -/
theorem GatewayTells.of_succeeds {cfg : GatewaySettings} {th : GatewayThread} {eventId : String}
    {reply : HttpResponse} (h : GatewayTells cfg th.request reply th.events)
    (hsuccess : GatewayThread.Succeeds eventId reply th) :
    ∃ row duplicate response,
      GetOrCreate StoredEvent.eventId eventId (th.events.filterMap gatewayTableEvent)
        (some (row, duplicate)) ∧
      row.toResponse cfg.loads false = some response ∧ response.dumpable cfg.serializes ∧
      reply = ⟨if duplicate then 200 else 201,
        .json { response with duplicate := duplicate }.shown⟩ := by
  obtain ⟨⟨body, hreq, rfl⟩, -, -, h300⟩ := hsuccess
  rw [hreq] at h
  obtain ⟨result, hstory, hshows⟩ := h
  cases result with
  | none =>
    have herror : 400 ≤ reply.status := hshows
    omega
  | some pair =>
    obtain ⟨row, duplicate⟩ := pair
    obtain ⟨response, hresponse, hdumpable, hreply⟩ := hshows.of_success h300
    exact ⟨row, duplicate, response, hstory, hresponse, hdumpable, hreply⟩

theorem saysCreated_succeeds {th : GatewayThread} {eventId : String}
    (h : GatewayThread.saysCreated eventId th) :
    ∃ reply, GatewayThread.Succeeds eventId reply th ∧ reply.status = 201 := by
  unfold GatewayThread.saysCreated at h
  split at h
  · rename_i body reply hreq hrest
    obtain ⟨hstatus, hid⟩ := of_decide_eq_true h
    exact ⟨reply, ⟨⟨body, hreq, hid⟩, hrest, by omega, by omega⟩, hstatus⟩
  · cases h

/-- Only a submission can have created a row, and only for its own event. -/
theorem GatewayTells.of_creates {cfg : GatewaySettings} {th : GatewayThread} {eventId : String}
    {reply : HttpResponse} (h : GatewayTells cfg th.request reply th.events)
    (hcreates : th.Creates gatewayTableEvent StoredEvent.eventId eventId) :
    (∃ body, th.request = .submit body ∧ body.eventId = eventId) ∧ ∃ row,
      GetOrCreate StoredEvent.eventId eventId (th.events.filterMap gatewayTableEvent)
        (some (row, false)) ∧ reply.Shows cfg (some (row, false)) := by
  cases hreq : th.request with
  | submit body =>
    rw [hreq] at h
    obtain ⟨result, hstory, hshows⟩ := h
    obtain ⟨row, rfl, hkey⟩ := (creates_iff_result hstory).mp hcreates
    have hid : body.eventId = eventId := (key_of_created hstory rfl).symm.trans hkey
    exact ⟨⟨body, rfl, hid⟩, row, hid ▸ hstory, hshows⟩
  | _ =>
    rw [hreq] at h
    obtain ⟨row, hmem, -⟩ := hcreates
    exact absurd rfl (h _ (insertEvent_of_added hmem) row true)

/-- **One story in the Gateway.**  In every run, of any requests in any interleaving. -/
theorem gateway_one_story (cfg : GatewaySettings) (db : GatewayDB) (ls : List GatewayLabel)
    (t : GatewayState) (h : Run (gatewayService cfg).step (.initial db) ls t) :
    GatewayOneStory cfg db t := by
  have hsees := (run_onTable (gateway_onTable cfg) h).2
  have htells : ∀ th ∈ t.threads, ∀ reply, th.Answered reply →
      GatewayTells cfg th.request reply th.events :=
    fun th hth => (run_keeps (gateway_tells cfg) h th hth).2
  have hcreated : ∀ th ∈ t.threads, ∀ eventId reply, GatewayThread.Succeeds eventId reply th →
      (reply.status = 201 ↔ th.Creates gatewayTableEvent StoredEvent.eventId eventId) := by
    intro th hth eventId reply hsuccess
    obtain ⟨row, duplicate, response, hstory, -, -, rfl⟩ :=
      (htells th hth reply hsuccess.2.1).of_succeeds hsuccess
    rw [creates_iff_result hstory]
    cases duplicate with
    | true => simp
    | false => simpa using key_of_created hstory rfl
  have htold : ∀ eventId, ∀ th ∈ t.threads, GatewayThread.saysCreated eventId th →
      th.Creates gatewayTableEvent StoredEvent.eventId eventId := by
    intro eventId th hth hsaid
    obtain ⟨reply, hsuccess, h201⟩ := saysCreated_succeeds hsaid
    exact (hcreated th hth eventId reply hsuccess).mp h201
  constructor
  · intro th hth
    refine (hsees th hth).ordered.imp ?_
    rintro e e' hprecedes row rfl
    exact hprecedes row.eventId rfl
  · intro th hth eventId reply hsuccess
    obtain ⟨row, duplicate, response, hstory, hresponse, -, rfl⟩ :=
      (htells th hth reply hsuccess.2.1).of_succeeds hsuccess
    refine ⟨row, response, (hsees th hth).get_of_result hstory rfl, hresponse, ?_⟩
    cases duplicate with
    | true => exact Or.inr rfl
    | false =>
      rw [response_not_duplicate hresponse]
      exact Or.inl rfl
  · exact hcreated
  · exact fun eventId => countP_creators_le (gateway_onTable cfg) h (htold eventId)
  · rintro hquiet eventId hnew ⟨th, hth, reply, hsuccess⟩
    obtain ⟨row, duplicate, response, hstory, hresponse, hdumpable, -⟩ :=
      (htells th hth reply hsuccess.2.1).of_succeeds hsuccess
    have hrow := (hsees th hth).get_of_result hstory rfl
    refine countP_creators_eq (gateway_onTable cfg) h
      (fun th' hth' => ⟨htold eventId th' hth', fun hcreates => ?_⟩) hnew ⟨row, hrow⟩
    -- the creator's row is the one that has been shown
    obtain ⟨reply', hanswered⟩ := hquiet th' hth'
    obtain ⟨⟨body, hreq, hid⟩, row', hstory', hshows⟩ :=
      (htells th' hth' reply' hanswered).of_creates hcreates
    have hsame := (hsees th' hth').get_of_result hstory' rfl
    cases hrow.symm.trans hsame
    have h201 : reply'.status = 201 := by rw [hshows.eq_shown hresponse hdumpable]; rfl
    rw [GatewayThread.saysCreated, hreq, show th'.rest = .done reply' from hanswered]
    exact decide_eq_true ⟨h201, hid⟩

/-- **One story**, in both services. -/
theorem one_story (cfg : GatewaySettings) (accountDb : AccountDB) (gatewayDb : GatewayDB)
    (accountLabels : List AccountLabel) (gatewayLabels : List GatewayLabel) (account : AccountState)
    (gateway : GatewayState)
    (haccount : Run accountService.step (.initial accountDb) accountLabels account)
    (hgateway : Run (gatewayService cfg).step (.initial gatewayDb) gatewayLabels gateway) :
    AccountOneStory accountDb account ∧ GatewayOneStory cfg gatewayDb gateway :=
  ⟨account_one_story accountDb accountLabels account haccount,
    gateway_one_story cfg gatewayDb gatewayLabels gateway hgateway⟩

/-- Two transactions of one event for two accounts: both handlers find no row, and the second is
faster. -/
def accountRace : List AccountLabel :=
  [.arrive (.post "acct-123" (sampleEvent.payload "150")),
    .arrive (.post "acct-456" (sampleEvent.payload "200")), .act 0 sampleEnv, .act 1 sampleEnv,
    .act 0 sampleEnv, .act 1 sampleEnv, .act 1 sampleEnv, .act 0 sampleEnv, .act 0 sampleEnv,
    .act 0 sampleEnv, .act 1 sampleEnv]

/-- What a race leaves behind: whether it is over, and whether the event is on record. -/
def accountRaceEnd (t : AccountState) : Bool × Bool :=
  (t.Quiet, (t.store.getTransaction "evt-001").isSome)

theorem one_story_races : ∃ (account : AccountState) (gateway : GatewayState),
    account.threads.countP (AccountThread.saysCreated "evt-001") = 1 ∧
      gateway.threads.countP (GatewayThread.saysCreated "evt-001") ≤ 1 := by
  obtain ⟨account, haccount, hend⟩ := Option.map_eq_some_iff.mp
    (show (accountRace.foldlM accountService.step (.initial AccountDB.new)).map accountRaceEnd =
      some (true, true) by decide +kernel)
  obtain ⟨gateway, hgateway⟩ := Option.isSome_iff_exists.mp
    (show (lostRace.foldlM (gatewayService calmSettings).step
      (.initial GatewayDB.new)).isSome = true by decide +kernel)
  obtain ⟨hstory, hgatewayStory⟩ := one_story calmSettings AccountDB.new GatewayDB.new accountRace
    lostRace account gateway haccount hgateway
  obtain ⟨hquiet, hrow⟩ := Prod.mk.inj hend
  exact ⟨account, gateway, hstory.creator_answers (of_decide_eq_true hquiet) "evt-001" rfl
    (Option.isSome_iff_ne_none.mp hrow), hgatewayStory.one_creator "evt-001"⟩

end EventLedger
