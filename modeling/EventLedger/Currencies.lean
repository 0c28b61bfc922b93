import EventLedger.Balance

/-!
# Accounts in several currencies

Nothing fixes the currency of an account.  The balance is summed over all of its
transactions, and labelled with the currency of the one that is listed first.
With sums taken exactly, the label is right exactly when the transactions in
every other currency cancel out (`balance_over_all_currencies`), as they do when
there are none.

Whether the sums are exact is another matter, and the subject of `Balance`.
-/
namespace EventLedger

open DecimalFloat KeyedTable

/-- Credits minus debits over the rows of an account in one currency. -/
def AccountDB.exactBalanceIn (db : AccountDB) (accountId currency : String) : ℚ :=
  EventLedger.exactBalance ((db.rowsOf accountId).filter (·.currency = currency))

/-- Credits minus debits over the rows of an account in any other currency. -/
def AccountDB.exactBalanceBeside (db : AccountDB) (accountId currency : String) : ℚ :=
  EventLedger.exactBalance ((db.rowsOf accountId).filter (·.currency ≠ currency))

/-- The pair `(balance, currency)` of `get_balance` and `get_account`, with the sum over the listing
taken exactly. -/
def exactReport (db : AccountDB) (accountId : String) : ℚ × Option String :=
  (EventLedger.exactBalance (db.listTransactions accountId),
    (db.listTransactions accountId).head?.map (·.currency))

/-- A balance text and a currency, as they are reported, denote a pair. -/
def Denotes (balance : String) (currency : Option String) (report : ℚ × Option String) : Prop :=
  currency = report.2 ∧ ∃ d, parse balance = some d ∧ d.value = report.1

theorem exactBalance_append (txs txs' : List StoredTransaction) :
    exactBalance (txs ++ txs') = exactBalance txs + exactBalance txs' := by
  induction txs' using List.reverseRecOn with
  | nil => simp
  | append_singleton txs' tx ih =>
    rw [← List.append_assoc, exactBalance_snoc, exactBalance_snoc, ih, add_assoc]

/-- A balance is the part in one currency and the part in the others. -/
theorem exactBalance_split (txs : List StoredTransaction) (currency : String) :
    exactBalance txs = exactBalance (txs.filter (·.currency = currency)) +
      exactBalance (txs.filter (·.currency ≠ currency)) := by
  have hperm := List.filter_append_perm (fun tx : StoredTransaction => tx.currency = currency) txs
  rw [← exactBalance_perm hperm, exactBalance_append]
  simp only [ne_eq, decide_not]

/-- **The report.**  The sum goes over all currencies; the label is that of the row no other row is
listed before. -/
theorem exactReport_eq {db : AccountDB} {accountId : String}
    (hrow : ∃ tx ∈ db.transactions.rows, tx.accountId = accountId) :
    ∃ first ∈ db.rowsOf accountId, (∀ tx ∈ db.rowsOf accountId, first.listedBefore tx) ∧
      exactReport db accountId =
        (db.exactBalanceIn accountId first.currency +
            db.exactBalanceBeside accountId first.currency,
          some first.currency) := by
  obtain ⟨tx, htx, haccount⟩ := hrow
  have hlisted : tx ∈ db.listTransactions accountId := mem_listTransactions.mpr ⟨htx, haccount⟩
  obtain ⟨first, rest, hlist⟩ := List.exists_cons_of_ne_nil (List.ne_nil_of_mem hlisted)
  have hmem : ∀ t, t ∈ db.listTransactions accountId ↔ t ∈ db.rowsOf accountId :=
    fun t => (listTransactions_perm db accountId).mem_iff
  have hsorted : (db.listTransactions accountId).Pairwise StoredTransaction.listedBefore :=
    List.pairwise_insertionSort StoredTransaction.listedBefore _
  refine ⟨first, (hmem first).mp (by simp [hlist]), ?_, ?_⟩
  · intro t ht
    rw [hlist, List.pairwise_cons] at hsorted
    rw [← hmem, hlist] at ht
    rcases List.mem_cons.mp ht with rfl | ht
    · exact (Std.Total.total (r := StoredTransaction.listedBefore) t t).elim id id
    · exact hsorted.1 t ht
  · have hsum : exactBalance (db.listTransactions accountId) =
        db.exactBalanceIn accountId first.currency +
          db.exactBalanceBeside accountId first.currency := by
      rw [exactBalance_perm (listTransactions_perm db accountId)]
      exact exactBalance_split (db.rowsOf accountId) first.currency
    rw [exactReport, hsum, hlist]
    rfl

/-- Rows that all have one currency leave nothing beside it. -/
theorem exactBalanceBeside_of_one_currency {db : AccountDB} {accountId currency : String}
    (hone : ∀ tx ∈ db.rowsOf accountId, tx.currency = currency) :
    db.exactBalanceBeside accountId currency = 0 := by
  have hnone : (db.rowsOf accountId).filter (·.currency ≠ currency) = [] := by
    apply List.filter_eq_nil_iff.mpr
    intro tx htx
    simp [hone tx htx]
  rw [AccountDB.exactBalanceBeside, hnone, exactBalance_nil]

/-- What the two read endpoints report denotes the exact report wherever the balance is exact. -/
theorem denotes_exactReport {db : AccountDB} {accountId : String}
    (hexact : BalanceExact db accountId) :
    (∃ answer, getBalance db accountId = some answer ∧
      Denotes answer.balance answer.currency (exactReport db accountId)) ∧
    ∃ answer, getAccount db accountId = some answer ∧
      Denotes answer.balance answer.currency (exactReport db accountId) := by
  obtain ⟨⟨b, hb, hvalue⟩, -⟩ := hexact
  have hdenotes : Denotes (formatF b) ((db.listTransactions accountId).head?.map (·.currency))
      (exactReport db accountId) := by
    refine ⟨rfl, b.plain, parse_formatF b, ?_⟩
    rw [Decimal.plain_value, hvalue]
    exact (exactBalance_listing db accountId).symm
  constructor
  · exact ⟨_, by rw [getBalance, hb, Option.map_some], hdenotes⟩
  · exact ⟨_, by rw [getAccount, hb, Option.map_some], hdenotes⟩

/-- **One balance over all currencies.**  The balance an account with transactions is reported with
is summed over all of them, whatever their currency, and labelled with the currency of the one
listed first.  It is the balance in that currency if and only if all the others cancel out, as they
do when there is only one currency. -/
theorem balance_over_all_currencies (db : AccountDB) (accountId : String)
    (hrow : ∃ tx ∈ db.transactions.rows, tx.accountId = accountId) :
    (∃ first ∈ db.rowsOf accountId,
      (∀ tx ∈ db.rowsOf accountId, first.listedBefore tx) ∧
      exactReport db accountId =
        (db.exactBalanceIn accountId first.currency +
            db.exactBalanceBeside accountId first.currency,
          some first.currency) ∧
      (exactReport db accountId =
          (db.exactBalanceIn accountId first.currency, some first.currency) ↔
        db.exactBalanceBeside accountId first.currency = 0) ∧
      ((∀ tx ∈ db.rowsOf accountId, tx.currency = first.currency) →
        db.exactBalanceBeside accountId first.currency = 0)) ∧
    (BalanceExact db accountId →
      (∃ answer, getBalance db accountId = some answer ∧
        Denotes answer.balance answer.currency (exactReport db accountId)) ∧
      ∃ answer, getAccount db accountId = some answer ∧
        Denotes answer.balance answer.currency (exactReport db accountId)) := by
  obtain ⟨first, hfirst, hbefore, hreport⟩ := exactReport_eq hrow
  refine ⟨⟨first, hfirst, hbefore, hreport, ?_, exactBalanceBeside_of_one_currency⟩,
    denotes_exactReport⟩
  rw [hreport, Prod.mk.injEq, add_eq_left]
  exact ⟨fun h => h.1, fun h => ⟨h, rfl⟩⟩

/-! ## Dollars and euros -/

/-- A credit of the sample account in some currency. -/
def sampleCreditIn (eventId amount currency : String) : StoredTransaction :=
  { sampleCredit eventId amount with currency := currency }

/-- A credit of ten dollars, and one of five euros. -/
def dollarsAndEuros : AccountDB :=
  { transactions := ⟨[sampleCreditIn "evt-1" "10" "USD", sampleCreditIn "evt-2" "5" "EUR"],
      by decide⟩
    auditLog := [] }

theorem balance_over_all_currencies_sample :
    ∃ first ∈ dollarsAndEuros.rowsOf "acct-123",
      exactReport dollarsAndEuros "acct-123" =
        (dollarsAndEuros.exactBalanceIn "acct-123" first.currency +
          dollarsAndEuros.exactBalanceBeside "acct-123" first.currency, some first.currency) := by
  obtain ⟨⟨first, hfirst, -, hreport, -⟩, -⟩ :=
    balance_over_all_currencies dollarsAndEuros "acct-123"
      ⟨sampleCreditIn "evt-1" "10" "USD", by decide, rfl⟩
  exact ⟨first, hfirst, hreport⟩

theorem sampleCreditIn_stored {eventId text currency : String} (amount : Decimal)
    (hid : eventId ≠ "") (hcurrency : currency ≠ "") (hpos : amount.Positive)
    (htext : amountStr amount = some text) :
    ∃ (body : TransactionRequest) (accountId : String) (now : DateTime),
      body.stored accountId now = some (sampleCreditIn eventId text currency) := by
  refine ⟨⟨eventId, .credit, amount, currency, sampleTimestamp, hid, hcurrency, hpos⟩, "acct-123",
    sampleTimestamp, ?_⟩
  simp only [TransactionRequest.stored, htext, Option.map_some, sampleCreditIn, sampleCredit]

/-- Ten dollars and five euros are reported as fifteen dollars. -/
theorem balance_adds_currencies :
    ¬ ∀ (db : AccountDB) (accountId : String), db.Canonical →
      (∃ tx ∈ db.transactions.rows, tx.accountId = accountId) →
      ∀ answer, getBalance db accountId = some answer →
        ∃ currency, Denotes answer.balance answer.currency
          (db.exactBalanceIn accountId currency, some currency) := by
  intro h
  have hdb : dollarsAndEuros.Canonical := by
    intro tx htx
    rcases List.mem_pair.mp htx with rfl | rfl
    · exact sampleCreditIn_stored ⟨false, 10, 0⟩ (by decide) (by decide) (by decide)
        (by decide +kernel)
    · exact sampleCreditIn_stored ⟨false, 5, 0⟩ (by decide) (by decide) (by decide)
        (by decide +kernel)
  have hanswer : getBalance dollarsAndEuros "acct-123" =
      some ⟨"acct-123", "15", some "USD", 2⟩ := by decide +kernel
  obtain ⟨currency, hcurrency, d, hd, hvalue⟩ := h dollarsAndEuros "acct-123" hdb
    ⟨sampleCreditIn "evt-1" "10" "USD", by decide, rfl⟩ _ hanswer
  cases Option.some.inj hcurrency
  have hread : parse "15" = some ⟨false, 15, 0⟩ := by decide
  rw [hread] at hd
  cases hd
  exact absurd hvalue (by decide +kernel)

end EventLedger
