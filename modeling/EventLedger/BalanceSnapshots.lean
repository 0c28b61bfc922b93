import EventLedger.AccountApi

/-!
# Balances read while transactions arrive

`get_balance` and `get_account` list the transactions and then read the balance,
which lists them again.  If no transaction of the account is inserted between
the two reads, the answer is what the handler would have computed in one state
of the database (`read_snapshot`).  If one is, the answer may belong to no state
at all (`torn_balance`).

The condition is one on steps: no insert for an account while some thread is between
its two reads of it.  Inserts for other accounts are free to happen in the meantime.
-/
namespace EventLedger

open Program Prog Service LabelledRun DecimalFloat

/-- A request to the Account Service and its handler. -/
abbrev AccountThread := Thread AccountRequest AccountApiOp AccountApiOp.Ret AccountReply

/-- The thread has listed the transactions of an account, and nothing else yet. -/
def BetweenReads (accountId : String) (th : AccountThread) : Prop :=
  ∃ txs, th.events = [⟨.listTransactions accountId, txs⟩]

/-- No transaction is inserted for an account that some thread is between the two reads of. -/
def NoInsertBetween (s : AccountState) (_ : AccountLabel) (t : AccountState) :
    Prop :=
  ∀ accountId, t.store.rowsOf accountId ≠ s.store.rowsOf accountId →
    ∀ th ∈ s.threads, ¬ BetweenReads accountId th

/-- The step leaves the rows alone that a thread with these events has listed, if it is between its
reads. -/
def keepsListed (s t : AccountState) : List (Event AccountApiOp AccountApiOp.Ret) → Bool
  | [⟨.listTransactions accountId, _⟩] => t.store.rowsOf accountId = s.store.rowsOf accountId
  | _ => true

theorem keepsListed_iff {s t : AccountState} {th : AccountThread} :
    keepsListed s t th.events = true ↔
      ∀ accountId, BetweenReads accountId th →
        t.store.rowsOf accountId = s.store.rowsOf accountId := by
  unfold keepsListed BetweenReads
  split
  · rename_i accountId txs hevents
    rw [decide_eq_true_iff]
    constructor
    · rintro hsame accountId' ⟨txs', h⟩
      rw [hevents] at h
      cases h
      exact hsame
    · exact fun h => h accountId ⟨txs, hevents⟩
  · rename_i hnot
    simp only [true_iff]
    rintro accountId ⟨txs, h⟩
    exact absurd h (hnot accountId txs)

instance (s : AccountState) (a : AccountLabel) (t : AccountState) :
    Decidable (NoInsertBetween s a t) :=
  decidable_of_iff (∀ th ∈ s.threads, keepsListed s t th.events = true) (by
    simp only [keepsListed_iff, NoInsertBetween]
    constructor
    · exact fun h accountId hne th hth hbetween => hne (h th hth accountId hbetween)
    · exact fun h th hth accountId hbetween => by_contra fun hne => h accountId hne th hth hbetween)

/-! ## What a read has done when it answers -/

/-- The reply to a request for a balance or an account, from a listing and a balance. -/
def ReadReply (req : AccountRequest) (accountId : String) (txs : List StoredTransaction)
    (total : Decimal) (reply : AccountReply) : Prop :=
  (req = .balance accountId ∧ reply = .balance (balanceResponse accountId txs total)) ∨
    (req = .account accountId ∧ reply = .account (accountDetail accountId txs total))

/-- A handler that an exception ends answers with the error. -/
theorem internalError_trace {es : List (Event AccountApiOp AccountApiOp.Ret)} {reply : AccountReply}
    (h : (do return .internalError (← AccountApiProg.traceId) :
      AccountApiProg AccountReply).Trace es reply) : ∃ id, reply = .internalError id := by
  obtain ⟨id, es', rfl, hdone⟩ := trace_act.mp h
  exact ⟨id, (trace_done.mp hdone).2⟩

/-- A balance or an account is answered from the listing and the sum, read one after the other. -/
theorem read_trace {req : AccountRequest} {es : List (Event AccountApiOp AccountApiOp.Ret)}
    {reply : AccountReply} (h : (handleAccount req).Trace es reply)
    (hreply : (∃ response, reply = .balance response) ∨ ∃ response, reply = .account response) :
    ∃ accountId txs total, ReadReply req accountId txs total reply ∧
      es = [⟨.listTransactions accountId, txs⟩, ⟨.balance accountId, some total⟩] := by
  cases req with
  | post accountId payload =>
    obtain ⟨es₁, answer, es₂, -, hdone, -⟩ := trace_bind.mp h
    obtain ⟨-, rfl⟩ := trace_done.mp hdone
    simp at hreply
  | malformed =>
    obtain ⟨-, rfl⟩ := trace_done.mp h
    simp at hreply
  | balance accountId =>
    simp only [handleAccount, getBalanceHandler, AccountApiProg.listTransactions,
      AccountApiProg.balance, perform_bind, trace_act] at h
    obtain ⟨txs, _, rfl, total, _, rfl, h⟩ := h
    cases total with
    | none =>
      obtain ⟨id, rfl⟩ := internalError_trace h
      simp at hreply
    | some total =>
      obtain ⟨rfl, rfl⟩ := trace_done.mp h
      exact ⟨accountId, txs, total, Or.inl ⟨rfl, rfl⟩, rfl⟩
  | account accountId =>
    simp only [handleAccount, getAccountHandler, AccountApiProg.listTransactions,
      AccountApiProg.balance, perform_bind, trace_act] at h
    obtain ⟨txs, _, rfl, total, _, rfl, h⟩ := h
    cases total with
    | none =>
      obtain ⟨id, rfl⟩ := internalError_trace h
      simp at hreply
    | some total =>
      obtain ⟨rfl, rfl⟩ := trace_done.mp h
      exact ⟨accountId, txs, total, Or.inr ⟨rfl, rfl⟩, rfl⟩
  | health =>
    simp only [handleAccount, AccountApiProg.ping, AccountApiProg.metrics, perform_bind, trace_act,
      pure_eq, trace_done] at h
    obtain ⟨_, _, _, _, _, _, _, rfl⟩ := h
    simp at hreply
  | metrics =>
    simp only [handleAccount, AccountApiProg.metrics, perform_bind, trace_act, pure_eq,
      trace_done] at h
    obtain ⟨_, _, _, _, rfl⟩ := h
    simp at hreply
  | audit account limit =>
    simp only [handleAccount, AccountApiProg.auditEntries, perform_bind, trace_act] at h
    obtain ⟨entries, _, rfl, h⟩ := h
    cases entries with
    | none =>
      obtain ⟨id, rfl⟩ := internalError_trace h
      simp at hreply
    | some entries =>
      obtain ⟨-, rfl⟩ := trace_done.mp h
      simp at hreply

/-! ## The invariant -/

/-- Every thread has come where it is by its events, and what one between its reads has listed is
still what would be listed. -/
structure Fresh (s : AccountState) : Prop where
  ran : ∀ th ∈ s.threads, th.Ran accountService
  listed : ∀ th ∈ s.threads, ∀ accountId txs, th.events = [⟨.listTransactions accountId, txs⟩] →
    txs = s.store.listTransactions accountId

theorem listTransactions_congr {db db' : AccountDB} {accountId : String}
    (h : db'.rowsOf accountId = db.rowsOf accountId) :
    db'.listTransactions accountId = db.listTransactions accountId :=
  congrArg (List.insertionSort StoredTransaction.listedBefore) h

/-- **One step.**  Without an insert between two reads, what was listed stays what is listed. -/
theorem fresh_step {s t : AccountState} {a : AccountLabel} (hs : Fresh s)
    (hstep : accountService.step s a = some t) (hinsert : NoInsertBetween s a t) : Fresh t := by
  constructor
  · exact run_ran (run_singleton.mpr hstep) hs.ran
  · have hkeep : ∀ th ∈ s.threads, ∀ accountId txs,
        th.events = [⟨.listTransactions accountId, txs⟩] →
        txs = t.store.listTransactions accountId := by
      intro th hth accountId txs hevents
      have hrows : t.store.rowsOf accountId = s.store.rowsOf accountId := by
        by_contra hne
        exact hinsert accountId hne th hth ⟨txs, hevents⟩
      rw [listTransactions_congr hrows]
      exact hs.listed th hth accountId txs hevents
    refine forall_threads_step (step_cases hstep) hkeep ?_ ?_
    · intro req _ accountId txs hevents
      cases hevents
    · intro i env req es o k store r _ _ hexec hstore _ accountId txs hevents
      -- the thread has just listed the transactions
      obtain ⟨-, hlast⟩ : es = [] ∧ (⟨o, r⟩ : Event AccountApiOp AccountApiOp.Ret) =
          ⟨.listTransactions accountId, txs⟩ := by
        cases es with
        | nil => exact ⟨rfl, List.singleton_inj.mp hevents⟩
        | cons e es => simp at hevents
      cases hlast
      rw [hstore]
      cases hexec
      rfl

/-! ## The answer -/

/-- The `i`-th request is this one, and it has been answered so. -/
def AnsweredAt (i : ℕ) (req : AccountRequest) (reply : AccountReply) (s : AccountState) : Prop :=
  ∃ th, s.threads[i]? = some th ∧ th.request = req ∧ th.Answered reply

/-- The `i`-th request is this one, and it is being handled. -/
def InProgress (i : ℕ) (req : AccountRequest) (s : AccountState) : Prop :=
  ∃ th, s.threads[i]? = some th ∧ th.request = req ∧ ∀ reply, ¬ th.Answered reply

/-- **The answering step.**  The step that answers a read takes it from the state before it. -/
theorem answering_step {s t : AccountState} {a : AccountLabel} {i : ℕ}
    {req : AccountRequest} {reply : AccountReply} (hs : Fresh s)
    (hstep : accountService.step s a = some t) (hbefore : ¬ AnsweredAt i req reply s)
    (hafter : AnsweredAt i req reply t)
    (hreply : (∃ response, reply = .balance response) ∨ ∃ response, reply = .account response) :
    InProgress i req s ∧ ∃ accountId total,
      ReadReply req accountId (s.store.listTransactions accountId) total reply ∧
        s.store.balance accountId = some total := by
  obtain ⟨th, hth, rfl, hanswered⟩ := hafter
  have hran : th.Ran accountService :=
    run_ran (run_singleton.mpr hstep) hs.ran th (List.mem_of_getElem? hth)
  have htrace : (handleAccount th.request).Trace th.events reply := by
    unfold Thread.Ran at hran
    rwa [hanswered] at hran
  obtain ⟨accountId, txs, total, hread, hevents⟩ := read_trace htrace hreply
  cases step_cases hstep with
  | arrive req =>
    by_cases hi : i < s.threads.length
    · rw [List.getElem?_append_left hi] at hth
      exact absurd ⟨th, hth, rfl, hanswered⟩ hbefore
    · -- a request that has just arrived has performed nothing
      have hnew := List.mem_of_getElem? ((List.getElem?_append_right (by omega)).symm.trans hth)
      rw [List.mem_singleton.mp hnew] at hevents
      cases hevents
  | act j env req es o k store r hthread hexec =>
    by_cases hij : j = i
    · subst hij
      have hlt : j < s.threads.length := (List.getElem?_eq_some_iff.mp hthread).1
      rw [List.getElem?_set_self hlt] at hth
      cases hth
      have hsplit : es ++ [⟨o, r⟩] = [(⟨.listTransactions accountId, txs⟩ :
          Event AccountApiOp AccountApiOp.Ret)] ++ [⟨.balance accountId, some total⟩] := hevents
      obtain ⟨hes, hlast⟩ := List.append_inj' hsplit rfl
      have hlisted := hs.listed _ (List.mem_of_getElem? hthread) accountId txs hes
      cases hlast
      have hbalance : s.store.balance accountId = some total :=
        congrArg Prod.snd (Option.some.inj hexec)
      refine ⟨⟨_, hthread, rfl, fun reply' h => by cases h⟩, accountId, total, ?_, hbalance⟩
      rw [← hlisted]
      exact hread
    · rw [List.getElem?_set_ne hij] at hth
      exact absurd ⟨th, hth, rfl, hanswered⟩ hbefore

/-- **Snapshots.**  In every run in which no transaction of an account is inserted between the two
reads of a request for it, every answered balance and every answered account is, as a whole, that of
one state of the database, a state in which the request was being handled. -/
theorem read_snapshot (db : AccountDB) (ls : List AccountLabel)
    (t : AccountState) (hrun : Run accountService.step (.initial db) ls t)
    (hinsert : Along accountService.step NoInsertBetween (.initial db) ls) (i : ℕ)
    (accountId : String) :
    (∀ response, AnsweredAt i (.balance accountId) (.balance response) t →
      ∃ before after u, ls = before ++ after ∧ Run accountService.step (.initial db) before u ∧
        Run accountService.step u after t ∧ InProgress i (.balance accountId) u ∧
        getBalance u.store accountId = some response) ∧
    (∀ response, AnsweredAt i (.account accountId) (.account response) t →
      ∃ before after u, ls = before ++ after ∧ Run accountService.step (.initial db) before u ∧
        Run accountService.step u after t ∧ InProgress i (.account accountId) u ∧
        getAccount u.store accountId = some response) := by
  have hfresh : Fresh (.initial db) :=
    ⟨fun th h => absurd h List.not_mem_nil, fun th h => absurd h List.not_mem_nil⟩
  have key : ∀ req reply, AnsweredAt i req reply t →
      ((∃ response, reply = .balance response) ∨ ∃ response, reply = .account response) →
      ∃ before after u, ls = before ++ after ∧ Run accountService.step (.initial db) before u ∧
        Run accountService.step u after t ∧ InProgress i req u ∧
        ∃ accountId total,
          ReadReply req accountId (u.store.listTransactions accountId) total reply ∧
            u.store.balance accountId = some total := by
    intro req reply hanswered hreply
    obtain ⟨-, hstates⟩ := hinsert.preserves (I := Fresh) (D := fun s _ _ => Fresh s)
      (fun s a u hs hstep hcond => ⟨fresh_step hs hstep hcond, hs⟩) hrun hfresh
    obtain ⟨before, a, after, u, v, hls, hbefore, hstep, hafter, hnot, hthen, hu⟩ :=
      hstates.exists_step (P := AnsweredAt i req reply) hrun
        (by rintro ⟨th, hth, -⟩; cases hth) hanswered
    obtain ⟨hprogress, hread⟩ := answering_step hu hstep hnot hthen hreply
    exact ⟨before, a :: after, u, hls, hbefore, run_cons.mpr ⟨v, hstep, hafter⟩, hprogress, hread⟩
  constructor
  · intro response hanswered
    obtain ⟨before, after, u, hls, hbefore, hafter, hprogress, a, total, hread, htotal⟩ :=
      key _ _ hanswered (Or.inl ⟨response, rfl⟩)
    refine ⟨before, after, u, hls, hbefore, hafter, hprogress, ?_⟩
    rcases hread with ⟨hreq, hreply⟩ | ⟨hreq, -⟩
    · cases hreq
      cases hreply
      rw [getBalance, htotal, Option.map_some]
    · cases hreq
  · intro response hanswered
    obtain ⟨before, after, u, hls, hbefore, hafter, hprogress, a, total, hread, htotal⟩ :=
      key _ _ hanswered (Or.inr ⟨response, rfl⟩)
    refine ⟨before, after, u, hls, hbefore, hafter, hprogress, ?_⟩
    rcases hread with ⟨hreq, -⟩ | ⟨hreq, hreply⟩
    · cases hreq
    · cases hreq
      cases hreply
      rw [getAccount, htotal, Option.map_some]

/-! ## Two runs -/

/-- The `i`-th request and the balance it has been answered with, if it has. -/
def answeredBalance (s : AccountState) (i : ℕ) : Option (AccountRequest × BalanceResponse) :=
  s.threads[i]?.bind fun th =>
    match th.rest with
    | .done (.balance response) => some (th.request, response)
    | _ => none

theorem answeredAt_of_answeredBalance {s : AccountState} {i : ℕ} {req : AccountRequest}
    {response : BalanceResponse} (h : answeredBalance s i = some (req, response)) :
    AnsweredAt i req (.balance response) s := by
  obtain ⟨th, hth, hrest⟩ := Option.bind_eq_some_iff.mp h
  refine ⟨th, hth, ?_⟩
  split at hrest
  · rename_i heq
    cases hrest
    exact ⟨rfl, heq⟩
  · cases hrest

/-- A transaction of another account is applied between the two reads of a request for the
balance. -/
def quietRead : List AccountLabel :=
  [.arrive (.balance "acct-123"), .act 0 sampleEnv,
    .arrive (.post "acct-456" (sampleEvent.payload "150")), .act 1 sampleEnv, .act 1 sampleEnv,
    .act 1 sampleEnv, .act 0 sampleEnv]

theorem read_snapshot_quiet :
    ∃ before after u t, quietRead = before ++ after ∧
      Run accountService.step (.initial twoDimes) before u ∧ Run accountService.step u after t ∧
      InProgress 0 (.balance "acct-123") u ∧
      getBalance u.store "acct-123" = some ⟨"acct-123", "0.2", some "USD", 2⟩ ∧
      (t.store.rowsOf "acct-456").length = 1 := by
  obtain ⟨t, hrun, hboth⟩ := Option.map_eq_some_iff.mp
    (show (quietRead.foldlM accountService.step (.initial twoDimes)).map
        (fun t => (answeredBalance t 0, (t.store.rowsOf "acct-456").length)) =
      some (some (.balance "acct-123", ⟨"acct-123", "0.2", some "USD", 2⟩), 1) by decide +kernel)
  obtain ⟨hanswer, hother⟩ := Prod.mk.inj hboth
  have hinsert : Along accountService.step NoInsertBetween (.initial twoDimes) quietRead := by
    decide +kernel
  obtain ⟨before, after, u, hls, hbefore, hafter, hprogress, hbalance⟩ :=
    (read_snapshot twoDimes quietRead t hrun hinsert 0 "acct-123").1 _
      (answeredAt_of_answeredBalance hanswer)
  exact ⟨before, after, u, t, hls, hbefore, hafter, hprogress, hbalance, hother⟩

/-- A transaction is applied between the two reads of a request for the balance. -/
def tornRead : List AccountLabel :=
  [.arrive (.balance "acct-123"), .act 0 sampleEnv,
    .arrive (.post "acct-123" (sampleEvent.payload "150")), .act 1 sampleEnv, .act 1 sampleEnv,
    .act 1 sampleEnv, .act 0 sampleEnv]

/-- A balance of no transactions is zero. -/
theorem balance_of_no_transactions {db : AccountDB} {accountId : String}
    {response : BalanceResponse} (h : getBalance db accountId = some response)
    (hcount : response.transactionCount = 0) : response.balance = "0" := by
  rw [getBalance, Option.map_eq_some_iff] at h
  obtain ⟨total, htotal, rfl⟩ := h
  have hnil : db.listTransactions accountId = [] := List.length_eq_zero_iff.mp hcount
  rw [AccountDB.balance, hnil] at htotal
  cases htotal
  show formatF ⟨false, 0, 0⟩ = "0"
  decide

/-- A balance of 150 over no transactions belongs to no state of the database. -/
theorem torn_balance :
    ¬ ∀ (db : AccountDB) (ls : List AccountLabel) (t : AccountState),
      Run accountService.step (.initial db) ls t →
      ∀ i accountId response, AnsweredAt i (.balance accountId) (.balance response) t →
        ∃ before after u, ls = before ++ after ∧ Run accountService.step (.initial db) before u ∧
          Run accountService.step u after t ∧ getBalance u.store accountId = some response := by
  intro h
  obtain ⟨t, hrun, hanswer⟩ := Option.bind_eq_some_iff.mp
    (show (tornRead.foldlM accountService.step (.initial AccountDB.new)).bind
        (answeredBalance · 0) =
      some (.balance "acct-123", ⟨"acct-123", "150", none, 0⟩) by decide +kernel)
  obtain ⟨_, _, u, -, -, -, hbalance⟩ := h AccountDB.new tornRead t hrun 0 "acct-123" _
    (answeredAt_of_answeredBalance hanswer)
  have hzero := balance_of_no_transactions hbalance rfl
  exact absurd hzero (by decide)

end EventLedger
