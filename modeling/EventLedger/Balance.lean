import EventLedger.Stores

/-!
# Exact balances

`AccountDB.balance` folds an account's transactions, in listing order, with
decimal additions that round to 28 digits.  The abstract side is the rational
number `exactBalance`, credits minus debits.  The two agree along the whole
listing exactly when every running total has a 28-digit representation
(`balance_exact_iff`); the first total that has none is rounded away.

`getBalance` and `getAccount` are the two endpoints in one state of the database.
The handlers read twice, and what that changes is `BalanceSnapshots`.
-/
namespace EventLedger

open DecimalFloat KeyedTable

/-! ## What the service computes -/

/-- One `total += amt if tx.type == "CREDIT" else -amt`. -/
def addTransaction (total : Decimal) (tx : StoredTransaction) : Option Decimal := do
  let amt ← parse tx.amount
  match tx.type with
  | .credit => add defaultContext total amt
  | .debit => do
    let negated ← neg defaultContext amt
    add defaultContext total negated

/-- The fold of `AccountDB.balance` over a listing, from `Decimal("0")`. -/
def sumTransactions (txs : List StoredTransaction) : Option Decimal :=
  txs.foldlM addTransaction ⟨false, 0, 0⟩

/-- `AccountDB.balance`; `none` is a decimal exception. -/
def AccountDB.balance (db : AccountDB) (accountId : String) : Option Decimal :=
  sumTransactions (db.listTransactions accountId)

/-- The answer of `get_balance` for the listing and the balance it has read. -/
def balanceResponse (accountId : String) (txs : List StoredTransaction) (balance : Decimal) :
    BalanceResponse :=
  { accountId := accountId, balance := formatF balance, currency := txs.head?.map (·.currency),
    transactionCount := txs.length }

/-- `get_balance`, in one state of the database. -/
def getBalance (db : AccountDB) (accountId : String) : Option BalanceResponse :=
  (db.balance accountId).map (balanceResponse accountId (db.listTransactions accountId))

/-- `[t.to_response() for t in txs[-10:]][::-1]`. -/
def recentTransactions (txs : List StoredTransaction) : List TransactionResponse :=
  ((txs.drop (txs.length - 10)).map (·.toResponse false)).reverse

/-- The answer of `get_account` for the listing and the balance it has read. -/
def accountDetail (accountId : String) (txs : List StoredTransaction) (balance : Decimal) :
    AccountDetailResponse :=
  { accountId := accountId, balance := formatF balance, currency := txs.head?.map (·.currency),
    transactionCount := txs.length, recentTransactions := recentTransactions txs }

/-- `get_account`, in one state of the database. -/
def getAccount (db : AccountDB) (accountId : String) : Option AccountDetailResponse :=
  (db.balance accountId).map (accountDetail accountId (db.listTransactions accountId))

/-! ## What the balance should be -/

/-- The number an amount column denotes. -/
def StoredTransaction.amountValue (tx : StoredTransaction) : ℚ :=
  ((parse tx.amount).map Decimal.value).getD 0

/-- The sum of the credits minus the sum of the debits. -/
def exactBalance (txs : List StoredTransaction) : ℚ :=
  ((txs.filter (·.type = .credit)).map (·.amountValue)).sum -
    ((txs.filter (·.type = .debit)).map (·.amountValue)).sum

/-- The exact balance of an account. -/
def AccountDB.exactBalance (db : AccountDB) (accountId : String) : ℚ :=
  EventLedger.exactBalance (db.transactions.rows.filter (·.accountId = accountId))

/-- Every row is one `apply_transaction` can store. -/
def AccountDB.Canonical (db : AccountDB) : Prop :=
  ∀ tx ∈ db.transactions.rows, ∃ (body : TransactionRequest) (accountId : String) (now : DateTime),
    body.stored accountId now = some tx

/-- The balance, and the text `get_balance` reports, denote the exact balance. -/
def BalanceExact (db : AccountDB) (accountId : String) : Prop :=
  (∃ b, db.balance accountId = some b ∧ b.value = db.exactBalance accountId) ∧
  ∃ answer d, getBalance db accountId = some answer ∧ parse answer.balance = some d ∧
    d.value = db.exactBalance accountId

@[simp] theorem exactBalance_nil : exactBalance [] = 0 := by simp [exactBalance]

theorem exactBalance_snoc (txs : List StoredTransaction) (tx : StoredTransaction) :
    exactBalance (txs ++ [tx]) =
      exactBalance txs + (if tx.type = .credit then tx.amountValue else -tx.amountValue) := by
  cases h : tx.type with
  | credit => simp [exactBalance, h]; ring
  | debit => simp [exactBalance, h]; ring

theorem exactBalance_perm {txs txs' : List StoredTransaction} (h : txs.Perm txs') :
    exactBalance txs = exactBalance txs' := by
  unfold exactBalance
  rw [((h.filter _).map _).sum_eq, ((h.filter _).map _).sum_eq]

/-- The listing of an account is its rows, in another order. -/
theorem listTransactions_perm (db : AccountDB) (accountId : String) :
    (db.listTransactions accountId).Perm
      (db.transactions.rows.filter (·.accountId = accountId)) :=
  List.perm_insertionSort _ _

theorem mem_listTransactions {db : AccountDB} {accountId : String} {tx : StoredTransaction} :
    tx ∈ db.listTransactions accountId ↔ tx ∈ db.transactions.rows ∧ tx.accountId = accountId := by
  rw [(listTransactions_perm db accountId).mem_iff, List.mem_filter]
  simp

theorem exactBalance_listing (db : AccountDB) (accountId : String) :
    exactBalance (db.listTransactions accountId) = db.exactBalance accountId :=
  exactBalance_perm (listTransactions_perm db accountId)

/-! ## One addition -/

/-- A stored amount reads back as a representable number. -/
def Readable (tx : StoredTransaction) : Prop :=
  ∃ amt, parse tx.amount = some amt ∧ Representable defaultContext amt.value

theorem readable_of_stored {body : TransactionRequest} {accountId : String} {now : DateTime}
    {tx : StoredTransaction} (h : body.stored accountId now = some tx) : Readable tx := by
  obtain ⟨amount, hamount, rfl⟩ := Option.map_eq_some_iff.mp h
  obtain ⟨amt, hparse, hrep, -⟩ := canonical_parse hamount
  exact ⟨amt, hparse, hrep⟩

theorem amountValue_of_parse {tx : StoredTransaction} {amt : Decimal}
    (h : parse tx.amount = some amt) : tx.amountValue = amt.value := by
  simp [StoredTransaction.amountValue, h]

/-- **One step.**  Added to an exact total, a transaction gives the exact next total precisely when
that total is representable. -/
theorem addTransaction_exact_iff {txs : List StoredTransaction} {tx : StoredTransaction}
    {total : Decimal} (htx : Readable tx) (htotal : total.value = exactBalance txs) :
    (∃ b, addTransaction total tx = some b ∧ b.value = exactBalance (txs ++ [tx])) ↔
      Representable defaultContext (exactBalance (txs ++ [tx])) := by
  obtain ⟨amt, hparse, hrep⟩ := htx
  have hvalue := amountValue_of_parse hparse
  rw [exactBalance_snoc, ← htotal, hvalue]
  cases htype : tx.type with
  | credit =>
    have hstep : addTransaction total tx = add defaultContext total amt := by
      simp [addTransaction, hparse, htype]
    rw [hstep, if_pos rfl]
    exact add_exact_iff
  | debit =>
    obtain ⟨negated, hneg, hnegvalue⟩ := neg_exact hrep
    have hstep : addTransaction total tx = add defaultContext total negated := by
      simp [addTransaction, hparse, htype, hneg]
    rw [hstep, if_neg (by decide), ← hnegvalue]
    exact add_exact_iff

theorem sumTransactions_snoc (txs : List StoredTransaction) (tx : StoredTransaction) :
    sumTransactions (txs ++ [tx]) = (sumTransactions txs).bind (addTransaction · tx) := by
  simp [sumTransactions, List.foldlM_append]

/-! ## The whole listing -/

/-- **The fold.**  Summing is exact on every leading part of a listing precisely when the exact sum
of every leading part is representable. -/
theorem sumTransactions_exact_iff {txs : List StoredTransaction} (hread : ∀ tx ∈ txs, Readable tx) :
    (∀ n, ∃ b, sumTransactions (txs.take n) = some b ∧ b.value = exactBalance (txs.take n)) ↔
      ∀ n, Representable defaultContext (exactBalance (txs.take n)) := by
  have hstep : ∀ n (hn : n < txs.length), txs.take (n + 1) = txs.take n ++ [txs[n]] :=
    fun n hn => List.take_succ_eq_append_getElem hn
  have hbeyond : ∀ n, ¬ n < txs.length → txs.take (n + 1) = txs.take n := by
    intro n hn
    rw [List.take_of_length_le (by omega), List.take_of_length_le (by omega)]
  constructor
  · intro h n
    induction n with
    | zero => simpa using Representable.zero defaultContext
    | succ n ih =>
      by_cases hn : n < txs.length
      · obtain ⟨total, hsum, htotal⟩ := h n
        obtain ⟨b, hb, hbvalue⟩ := h (n + 1)
        rw [hstep n hn, sumTransactions_snoc, hsum] at hb
        rw [hstep n hn] at hbvalue ⊢
        exact (addTransaction_exact_iff (hread _ (List.getElem_mem hn)) htotal).mp
          ⟨b, hb, hbvalue⟩
      · rwa [hbeyond n hn]
  · intro h n
    induction n with
    | zero => exact ⟨⟨false, 0, 0⟩, rfl, by simp [Decimal.value, Decimal.signed]⟩
    | succ n ih =>
      by_cases hn : n < txs.length
      · obtain ⟨total, hsum, htotal⟩ := ih
        have hnext := h (n + 1)
        rw [hstep n hn] at hnext
        obtain ⟨b, hb, hbvalue⟩ :=
          (addTransaction_exact_iff (hread _ (List.getElem_mem hn)) htotal).mpr hnext
        refine ⟨b, ?_, by rw [hstep n hn]; exact hbvalue⟩
        rw [hstep n hn, sumTransactions_snoc, hsum]
        exact hb
      · rwa [hbeyond n hn]

/-- The reported text is the printed balance, so it denotes what the balance denotes. -/
theorem balanceExact_iff_balance {db : AccountDB} {accountId : String} :
    BalanceExact db accountId ↔
      ∃ b, db.balance accountId = some b ∧ b.value = db.exactBalance accountId := by
  constructor
  · exact fun h => h.1
  · rintro ⟨b, hb, hvalue⟩
    have hanswer : getBalance db accountId =
        some (balanceResponse accountId (db.listTransactions accountId) b) := by
      rw [getBalance, hb, Option.map_some]
    refine ⟨⟨b, hb, hvalue⟩, _, b.plain, hanswer, parse_formatF b, ?_⟩
    rw [Decimal.plain_value, hvalue]

/-- The database holding just the first `n` transactions of an account's listing. -/
def AccountDB.leading (db : AccountDB) (accountId : String) (n : ℕ) : AccountDB where
  transactions :=
    { rows := (db.listTransactions accountId).take n
      nodup := by
        have hsub : ((db.listTransactions accountId).take n).Sublist
            (db.listTransactions accountId) := List.take_sublist n _
        have hperm := (listTransactions_perm db accountId).map StoredTransaction.eventId
        have hfilter : ((db.transactions.rows.filter (·.accountId = accountId)).map
            StoredTransaction.eventId).Nodup :=
          db.transactions.nodup.sublist (List.filter_sublist.map _)
        exact (hperm.nodup_iff.mpr hfilter).sublist (hsub.map _) }
  auditLog := db.auditLog

theorem leading_filter (db : AccountDB) (accountId : String) (n : ℕ) :
    (db.leading accountId n).transactions.rows.filter (·.accountId = accountId) =
      (db.listTransactions accountId).take n := by
  apply List.filter_eq_self.mpr
  intro tx htx
  exact decide_eq_true (mem_listTransactions.mp (List.mem_of_mem_take htx)).2

theorem leading_listTransactions (db : AccountDB) (accountId : String) (n : ℕ) :
    (db.leading accountId n).listTransactions accountId =
      (db.listTransactions accountId).take n := by
  rw [AccountDB.listTransactions, leading_filter]
  exact ((List.pairwise_insertionSort StoredTransaction.listedBefore _).sublist
    (List.take_sublist n _)).insertionSort_eq

theorem leading_exactBalance (db : AccountDB) (accountId : String) (n : ℕ) :
    (db.leading accountId n).exactBalance accountId =
      exactBalance ((db.listTransactions accountId).take n) := by
  rw [AccountDB.exactBalance, leading_filter]

/-- **Exact balances.**  The balance of an account is exact, and stays exact however far its listing
is read, precisely when every running total of the listing is a 28-digit decimal in range. -/
theorem balance_exact_iff (db : AccountDB) (accountId : String) (hdb : db.Canonical) :
    ((∀ n, BalanceExact (db.leading accountId n) accountId) ↔
      ∀ n, Representable defaultContext ((db.leading accountId n).exactBalance accountId)) ∧
    ((∀ n, Representable defaultContext ((db.leading accountId n).exactBalance accountId)) →
      BalanceExact db accountId) := by
  have hread : ∀ tx ∈ db.listTransactions accountId, Readable tx := by
    intro tx htx
    obtain ⟨body, account, now, h⟩ := hdb tx (mem_listTransactions.mp htx).1
    exact readable_of_stored h
  have hfold := sumTransactions_exact_iff hread
  simp only [balanceExact_iff_balance, AccountDB.balance, leading_listTransactions,
    leading_exactBalance]
  refine ⟨hfold, fun h => ?_⟩
  have hall := hfold.mpr h (db.listTransactions accountId).length
  rwa [List.take_length, exactBalance_listing] at hall

/-! ## A ledger with exact balances, and one without -/

/-- A credit of the sample account, as its row is stored. -/
def sampleCredit (eventId amount : String) : StoredTransaction :=
  { eventId := eventId, accountId := "acct-123", type := .credit, amount := amount,
    currency := "USD", eventTimestamp := sampleTimestamp.isoformat,
    createdAt := sampleTimestamp.isoformat }

theorem sampleCredit_stored {eventId text : String} (amount : Decimal) (hid : eventId ≠ "")
    (hpos : amount.Positive) (htext : amountStr amount = some text) :
    ∃ (body : TransactionRequest) (accountId : String) (now : DateTime),
      body.stored accountId now = some (sampleCredit eventId text) := by
  refine ⟨⟨eventId, .credit, amount, "USD", sampleTimestamp, hid, by decide, hpos⟩, "acct-123",
    sampleTimestamp, ?_⟩
  simp only [TransactionRequest.stored, htext, Option.map_some, sampleCredit]

/-- Two dimes. -/
def twoDimes : AccountDB :=
  { transactions := ⟨[sampleCredit "evt-1" "0.1", sampleCredit "evt-2" "0.1"], by decide⟩
    auditLog := [] }

theorem balance_exact_iff_two_dimes : BalanceExact twoDimes "acct-123" := by
  have hdb : twoDimes.Canonical := by
    intro tx htx
    rcases List.mem_pair.mp htx with rfl | rfl
    · exact sampleCredit_stored ⟨false, 10, -2⟩ (by decide) (by decide)
        (by decide +kernel)
    · exact sampleCredit_stored ⟨false, 1, -1⟩ (by decide) (by decide)
        (by decide +kernel)
  apply (balance_exact_iff twoDimes "acct-123" hdb).2
  intro n
  rw [leading_exactBalance]
  match n with
  | 0 => exact ⟨0, 0, by decide +kernel, by decide, by decide, by decide⟩
  | 1 => exact ⟨1, -1, by decide +kernel, by decide, by decide, by decide⟩
  | n + 2 =>
    rw [List.take_of_length_le (by
      rw [(listTransactions_perm twoDimes "acct-123").length_eq]
      exact Nat.le_add_left 2 n)]
    exact ⟨2, -1, by decide +kernel, by decide, by decide, by decide⟩

/-- A credit of `1E+28`, and a credit of one. -/
def hugeThenOne : AccountDB :=
  { transactions := ⟨[sampleCredit "evt-1" "10000000000000000000000000000",
      sampleCredit "evt-2" "1"], by decide⟩
    auditLog := [] }

/-- The unit is rounded away: the balance of `hugeThenOne` is `1E+28`. -/
theorem balance_drops_a_unit :
    ¬ ∀ (db : AccountDB) (accountId : String), db.Canonical → BalanceExact db accountId := by
  intro h
  have hdb : hugeThenOne.Canonical := by
    intro tx htx
    rcases List.mem_pair.mp htx with rfl | rfl
    · exact sampleCredit_stored ⟨false, 1, 28⟩ (by decide) (by decide)
        (by decide +kernel)
    · exact sampleCredit_stored ⟨false, 1, 0⟩ (by decide) (by decide)
        (by decide +kernel)
  obtain ⟨b, hb, hvalue⟩ := (h hugeThenOne "acct-123" hdb).1
  have hrounded : hugeThenOne.balance "acct-123" =
      some ⟨false, 1000000000000000000000000000, 1⟩ := by decide +kernel
  rw [hrounded] at hb
  cases hb
  exact absurd hvalue (by decide +kernel)

end EventLedger
