import EventLedger.Linearization
import EventLedger.OneStory
import EventLedger.SharedConnection

/-!
# The Account Service is one register of transactions

The first application of an event that succeeds fixes its transaction, whatever
account it names, and every later one shows it.  As in the Gateway, the handlers
take several operations for it and interleave, with each other and with the reads
of the other endpoints.

The register knows applications only.  A balance is read in two operations, and a
transaction may be applied between them, so reads of balances and accounts have no
single moment at which they take effect (`BalanceSnapshots`); here they are requests
that leave the register alone.
-/
namespace EventLedger

open Program Prog Service LabelledRun KeyedTable TableEvent

/-! ## The register -/

/-- A table of transactions. -/
abbrev TransactionTable := Table StoredTransaction.eventId

/-- The transaction a request asks for: its account is routed to and its payload is valid. -/
def TxPayload.Asks (payload : TxPayload) (accountId : String) (tx : StoredTransaction) : Prop :=
  ∃ routed body now, accountRoute accountId = .account routed ∧
    TransactionRequest.validate payload = some body ∧ body.stored routed now = some tx

/-- One request at a time. -/
inductive TransactionMoves :
    TransactionTable → AccountRequest → StoredTransaction × Bool → TransactionTable → Prop
  | applied {t t' : TransactionTable} {accountId : String} {payload : TxPayload}
      {tx : StoredTransaction} (hasks : payload.Asks accountId tx)
      (hinsert : t.insert tx = some t') :
      TransactionMoves t (.post accountId payload) (tx, false) t'
  | duplicate {t : TransactionTable} {accountId : String} {payload : TxPayload}
      {tx : StoredTransaction} (hget : t.get payload.eventId = some tx) :
      TransactionMoves t (.post accountId payload) (tx, true) t

/-- The register of transactions. -/
def transactionRegister : Object AccountRequest (StoredTransaction × Bool) :=
  ⟨TransactionTable, TransactionMoves⟩

theorem TransactionMoves.grows {t t' : TransactionTable} {req : AccountRequest}
    {result : StoredTransaction × Bool} (h : TransactionMoves t req result t') : t.Grows t' := by
  cases h with
  | applied hasks hinsert => exact Table.grows_insert hinsert
  | duplicate hget => exact Table.Grows.refl t

/-- The answer tells the result; there is none if it shows no transaction. -/
def TransactionTells (req : AccountRequest) (reply : AccountReply)
    (result : Option (StoredTransaction × Bool)) : Prop :=
  match req with
  | .post _ _ => ∃ answer, reply = .posted answer ∧ answer.Shows result
  | _ => result = none ∧ ∀ status response, reply ≠ .posted (.transaction status response)

/-! ## Where requests take effect -/

/-- The operation at which a request takes effect: the lookup or the insert that comes upon the
row. -/
def transactionPoint :
    AccountRequest → Event AccountApiOp AccountApiOp.Ret → Option (StoredTransaction × Bool)
  | .post _ _, e => (accountTableEvent e).bind shown?
  | _, _ => none

/-- The operations of `apply_transaction` on the transactions are on those it was asked for. -/
def OnAsked (accountId : String) (payload : TxPayload) : AccountOp → Prop
  | .getTransaction eventId => eventId = payload.eventId
  | .insertTransaction tx => payload.Asks accountId tx
  | _ => True

/-- The operations a request may need. -/
def TransactionPerforms : AccountRequest → AccountApiOp → Prop
  | .post accountId payload, .core op => OnAsked accountId payload op
  | .post _ _, _ => True
  | _, o => o.Reads

theorem applyTransaction_onAsked {accountId routed : String} {payload : TxPayload}
    {body : TransactionRequest} (hroute : accountRoute accountId = .account routed)
    (hvalid : TransactionRequest.validate payload = some body) :
    (applyTransaction routed body).All (OnAsked accountId payload) := by
  have hid : body.eventId = payload.eventId := (TransactionRequest.validate_fields hvalid).1
  simp only [applyTransaction, AccountProg.getTransaction, AccountProg.now, perform_bind]
  refine ⟨hid, fun existing => ?_⟩
  cases existing with
  | some existing => exact ⟨trivial, fun _ => trivial⟩
  | none =>
    refine ⟨trivial, fun now => ?_⟩
    dsimp only
    cases hstored : body.stored routed now with
    | none => exact ⟨trivial, fun _ => trivial⟩
    | some tx =>
      refine ⟨⟨routed, body, now, hroute, hvalid, hstored⟩, fun created => ?_⟩
      cases created with
      | true => exact ⟨trivial, fun _ => trivial⟩
      | false =>
        refine ⟨hid, fun winner => ⟨trivial, fun _ => ?_⟩⟩
        cases winner with
        | some winner => trivial
        | none => exact ⟨trivial, fun _ => trivial⟩

theorem serve_onAsked (accountId : String) (payload : TxPayload) :
    (serve accountId payload).All (OnAsked accountId payload) := by
  unfold serve
  cases hroute : accountRoute accountId with
  | account routed =>
    cases hvalid : TransactionRequest.validate payload with
    | some body => exact applyTransaction_onAsked hroute hvalid
    | none => trivial
  | unmatched refusal => trivial
  | invalidUrl => exact ⟨trivial, fun _ => trivial⟩

theorem handleAccount_performs (req : AccountRequest) :
    (handleAccount req).All (TransactionPerforms req) := by
  cases req with
  | post accountId payload =>
    exact All.bind (All.interpret (serve_onAsked accountId payload)
      fun op hop => ⟨hop, fun _ => trivial⟩) fun answer => trivial
  | _ => exact (handleAccount_all fun accountId payload h => by cases h).mono fun _ h => h

/-- **Handlers.**  Every request takes effect at one operation at most, and is answered by its
result. -/
theorem handleAccount_registers (req : AccountRequest) :
    (handleAccount req).Ensures fun reply es =>
      (es.filterMap (transactionPoint req)).length ≤ 1 ∧
        TransactionTells req reply (es.filterMap (transactionPoint req)).head? := by
  refine (account_tells req).mono fun reply es htells => ?_
  have hnone : (∀ e, transactionPoint req e = none) → es.filterMap (transactionPoint req) = [] :=
    fun h => List.filterMap_eq_nil_iff.mpr fun e _ => h e
  cases req with
  | post accountId payload =>
    obtain ⟨result, answer, hstory, hreply, hshows, -⟩ := htells
    have hpoints : es.filterMap (transactionPoint (.post accountId payload)) = result.toList := by
      rw [← hstory.filterMap_shown?, List.filterMap_filterMap]
      rfl
    rw [hpoints]
    cases result with
    | none => exact ⟨Nat.zero_le 1, answer, hreply, hshows⟩
    | some result => exact ⟨le_refl 1, answer, hreply, hshows⟩
  | _ =>
    rw [hnone fun _ => rfl]
    exact ⟨Nat.zero_le 1, rfl, htells.2⟩

/-! ## Databases the Account Service can be run over -/

/-- The Account Service over a database of another kind. -/
def accountOver {σ ε : Type} (exec : ε → σ → (o : AccountApiOp) → Option (σ × o.Ret)) :
    Service AccountRequest AccountApiOp AccountApiOp.Ret AccountReply σ ε where
  handle := handleAccount
  exec := exec

section
variable {σ ε : Type} {exec : ε → σ → (o : AccountApiOp) → Option (σ × o.Ret)}
  {transactions : σ → TransactionTable}

/-- What an operation of any request does to the register. -/
theorem transaction_effect (hmoves : (accountOver exec).OnTable transactions accountTableEvent)
    (req : AccountRequest) (env : ε) (s : σ) (o : AccountApiOp) (s' : σ) (r : o.Ret)
    (hperforms : TransactionPerforms req o) (hexec : exec env s o = some (s', r)) :
    (transactionPoint req ⟨o, r⟩).elim (transactions s' = transactions s)
      fun result => TransactionMoves (transactions s) req result (transactions s') := by
  have hmoves := hmoves env s o s' r hexec
  have hsame : o.Reads → transactions s' = transactions s := by
    intro hreads
    cases o with
    | core op =>
      cases op with
      | insertTransaction tx => exact absurd hreads id
      | getTransaction eventId => exact hmoves.1
      | _ => exact hmoves
    | _ => exact hmoves
  cases req with
  | post accountId payload =>
    cases o with
    | core op =>
      cases op with
      | getTransaction eventId =>
        obtain ⟨hstore, hget⟩ := hmoves
        cases r with
        | none => exact hstore
        | some tx =>
          cases hperforms
          show TransactionMoves (transactions s) _ _ (transactions s')
          rw [hstore]
          exact .duplicate hget
      | insertTransaction tx =>
        cases r with
        | true => exact .applied hperforms hmoves
        | false => exact hmoves.1
      | _ => exact hmoves
    | _ => exact hmoves
  | _ => exact hsame hperforms

/-- The Account Service stands for the register. -/
def transactionPoints (hmoves : (accountOver exec).OnTable transactions accountTableEvent) :
    Points (accountOver exec) transactionRegister where
  abs := transactions
  performs := TransactionPerforms
  point := transactionPoint
  tells := TransactionTells
  handle_performs := handleAccount_performs
  effect := transaction_effect hmoves
  once req := by
    refine Keeps.mono (I := fun es => (es.filterMap (transactionPoint req)).length ≤ 1)
      ((handleAccount_registers req).keeps fun reply es es' h => ?_) (fun _ h => h)
      fun _ _ _ h => h.2
    have hlength := h.1
    rw [List.filterMap_append, List.length_append] at hlength
    omega

end

end EventLedger
