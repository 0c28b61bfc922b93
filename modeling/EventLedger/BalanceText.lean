import EventLedger.Balance

/-!
# Balances as text

Amounts are normalised on the way in, but a balance is printed as it was summed,
and the exponent of a decimal sum is the least one among its operands.  While no
sum is rounded, the text of a balance therefore has as many decimal places as the
longest amount of the account, whatever the balance is, and two accounts with the
same exact balance report the same text exactly if their longest amounts are
equally long (`balance_text_iff`).
-/
namespace EventLedger

open DecimalFloat KeyedTable

/-! ## Decimal places -/

/-- The decimal places of an amount column. -/
def StoredTransaction.places (tx : StoredTransaction) : ℕ :=
  (parse tx.amount).elim 0 fun amt => (-amt.exp).toNat

/-- The decimal places of the longest amount. -/
def mostPlaces (txs : List StoredTransaction) : ℕ :=
  txs.foldl (fun n tx => max n tx.places) 0

/-- The decimal places of the longest amount of an account. -/
def AccountDB.mostPlaces (db : AccountDB) (accountId : String) : ℕ :=
  EventLedger.mostPlaces (db.transactions.rows.filter (·.accountId = accountId))

/-- Every running total, written with as many places as the amounts so far, has at most 28
digits. -/
def Unrounded (db : AccountDB) (accountId : String) : Prop :=
  ∀ n ≤ (db.listTransactions accountId).length,
    |exactBalance ((db.listTransactions accountId).take n)| *
      10 ^ mostPlaces ((db.listTransactions accountId).take n) < 10 ^ 28

instance (db : AccountDB) (accountId : String) : Decidable (Unrounded db accountId) :=
  inferInstanceAs (Decidable (∀ n ≤ _, _ < _))

theorem mostPlaces_snoc (txs : List StoredTransaction) (tx : StoredTransaction) :
    mostPlaces (txs ++ [tx]) = max (mostPlaces txs) tx.places := by
  simp [mostPlaces]

theorem mostPlaces_listing (db : AccountDB) (accountId : String) :
    mostPlaces (db.listTransactions accountId) = db.mostPlaces accountId := by
  refine (listTransactions_perm db accountId).foldl_eq' (fun a _ b _ n => ?_) 0
  rw [max_right_comm]

/-! ## The running total -/

/-- What a stored amount is: not negative, without a positive exponent, and short if it has a
fraction. -/
structure Amount (amt : Decimal) : Prop where
  nonneg : amt.neg = false
  exp_le : amt.exp ≤ 0
  short : amt.exp < 0 → amt.coeff < 10 ^ 28 ∧ defaultContext.etiny ≤ amt.exp
  representable : Representable defaultContext amt.value

theorem amount_of_stored {body : TransactionRequest} {accountId : String} {now : DateTime}
    {tx : StoredTransaction} (h : body.stored accountId now = some tx) :
    ∃ amt, parse tx.amount = some amt ∧ Amount amt := by
  obtain ⟨amount, hamount, rfl⟩ := Option.map_eq_some_iff.mp h
  obtain ⟨amt, hparse, hrep, hneg⟩ := canonical_parse hamount
  obtain ⟨hexp, hshort⟩ := canonical_parse_range hamount hparse
  exact ⟨amt, hparse, hneg.trans body.amount_positive.1, hexp, hshort, hrep⟩

/-- A decimal that brings `k` places into a sum. -/
structure Brings (k : ℕ) (d : Decimal) : Prop where
  exp : min d.exp 0 = -k
  low : defaultContext.etiny ≤ -k

variable {amt total x : Decimal} {k m : ℕ}

theorem Amount.brings (h : Amount amt) : Brings (-amt.exp).toNat amt := by
  have hexp := h.exp_le
  refine ⟨by omega, ?_⟩
  have hlow : defaultContext.etiny ≤ 0 := by decide
  by_cases hlt : amt.exp < 0
  · have := (h.short hlt).2
    omega
  · omega

/-- Rounding an amount leaves the places it brings. -/
theorem Amount.fix_exp (h : Amount amt) {d n : Decimal} (hcoeff : d.coeff = amt.coeff)
    (hexp : d.exp = amt.exp) (hfix : fix defaultContext d = some n) : min n.exp 0 = amt.exp := by
  have hle := h.exp_le
  have hlow : defaultContext.etiny ≤ 0 := by decide
  have hhigh : (0 : ℤ) ≤ defaultContext.etop := by decide
  by_cases hlt : amt.exp < 0
  · obtain ⟨hshort, hetiny⟩ := h.short hlt
    have hself : fix defaultContext d = some d :=
      fix_self (hcoeff ▸ hshort) (hexp ▸ hetiny) (hexp ▸ hle.trans hhigh)
    cases hself.symm.trans hfix
    omega
  · by_cases hzero : amt.coeff = 0
    · have hself : fix defaultContext d = some d :=
        fix_self (by rw [hcoeff, hzero]; decide) (by omega) (by omega)
      cases hself.symm.trans hfix
      omega
    · have hraised := fix_le_exp (hcoeff ▸ hzero) hfix
      omega

/-- Rounded as it is negated, an amount brings the places it has. -/
theorem Amount.negated (h : Amount amt) :
    ∃ n, neg defaultContext amt = some n ∧ n.value = -amt.value ∧
      Brings (-amt.exp).toNat n := by
  obtain ⟨n, hn, hvalue⟩ := neg_exact h.representable
  have hplaces : min n.exp 0 = amt.exp := by
    rw [neg] at hn
    split at hn
    · exact h.fix_exp (d := { amt with neg := false }) rfl rfl hn
    · exact h.fix_exp (d := { amt with neg := !amt.neg }) rfl rfl hn
  have hexp := h.exp_le
  exact ⟨n, hn, hvalue, by omega, h.brings.low⟩

/-- A total with `m` decimal places. -/
structure Total (m : ℕ) (total : Decimal) : Prop where
  exp : total.exp = -m
  low : defaultContext.etiny ≤ -m
  sign : total.neg = true → total.coeff ≠ 0

theorem total_zero : Total 0 ⟨false, 0, 0⟩ := ⟨rfl, by decide, fun h => by cases h⟩

/-- **One addition.**  A sum that is not rounded has as many places as the longer operand. -/
theorem Total.add (ht : Total m total) (hx : Brings k x)
    (hshort : |total.value + x.value| * 10 ^ max m k < 10 ^ 28) :
    ∃ t, DecimalFloat.add defaultContext total x = some t ∧
      t.value = total.value + x.value ∧ Total (max m k) t := by
  have hexp : (addExact total x).exp = -(max m k : ℕ) := by
    have := ht.exp
    have := hx.exp
    show min total.exp x.exp = _
    omega
  have hlow : defaultContext.etiny ≤ (addExact total x).exp := by
    have := ht.low
    have := hx.low
    omega
  have hhigh : (addExact total x).exp ≤ defaultContext.etop := by
    have : (0 : ℤ) ≤ defaultContext.etop := by decide
    omega
  have hcoeff : (addExact total x).coeff < 10 ^ 28 := by
    have habs := (addExact total x).abs_value
    rw [addExact_value, hexp] at habs
    rw [habs, mul_assoc, zpow_neg, zpow_natCast, inv_mul_cancel₀ (by positivity), mul_one]
      at hshort
    exact_mod_cast hshort
  refine ⟨addExact total x, fix_self hcoeff hlow hhigh, addExact_value total x, hexp, ?_, ?_⟩
  · rw [← hexp]
    exact hlow
  · exact addExact_neg ht.sign

/-- **One transaction.** -/
theorem addTransaction_total {txs : List StoredTransaction} {tx : StoredTransaction}
    (ht : Total (mostPlaces txs) total) (hvalue : total.value = exactBalance txs)
    (htx : ∃ amt, parse tx.amount = some amt ∧ Amount amt)
    (hshort : |exactBalance (txs ++ [tx])| * 10 ^ mostPlaces (txs ++ [tx]) < 10 ^ 28) :
    ∃ t, addTransaction total tx = some t ∧ t.value = exactBalance (txs ++ [tx]) ∧
      Total (mostPlaces (txs ++ [tx])) t := by
  obtain ⟨amt, hparse, hamt⟩ := htx
  have hplaces : tx.places = (-amt.exp).toNat := by
    rw [StoredTransaction.places, hparse]
    rfl
  rw [exactBalance_snoc, mostPlaces_snoc, hplaces, amountValue_of_parse hparse, ← hvalue]
    at hshort ⊢
  cases htype : tx.type with
  | credit =>
    have hstep : addTransaction total tx = DecimalFloat.add defaultContext total amt := by
      simp [addTransaction, hparse, htype]
    rw [htype, if_pos rfl] at hshort
    rw [hstep, if_pos rfl]
    exact ht.add hamt.brings hshort
  | debit =>
    obtain ⟨n, hn, hnvalue, hbrings⟩ := hamt.negated
    have hstep : addTransaction total tx = DecimalFloat.add defaultContext total n := by
      simp [addTransaction, hparse, htype, hn]
    rw [htype, if_neg (by decide), ← hnvalue] at hshort
    rw [hstep, if_neg (by decide), ← hnvalue]
    exact ht.add hbrings hshort

/-- **The fold.**  By induction on how much of the listing has been summed. -/
theorem sumTransactions_total {txs : List StoredTransaction}
    (hall : ∀ tx ∈ txs, ∃ amt, parse tx.amount = some amt ∧ Amount amt)
    (hshort : ∀ n ≤ txs.length,
      |exactBalance (txs.take n)| * 10 ^ mostPlaces (txs.take n) < 10 ^ 28) :
    ∃ t, sumTransactions txs = some t ∧ t.value = exactBalance txs ∧ Total (mostPlaces txs) t := by
  induction txs using List.reverseRecOn with
  | nil => exact ⟨_, rfl, by simp [Decimal.value, Decimal.signed], total_zero⟩
  | append_singleton txs tx ih =>
    have hleading : ∀ n ≤ txs.length, (txs ++ [tx]).take n = txs.take n :=
      fun n hn => List.take_append_of_le_length hn
    obtain ⟨total, htotal, hvalue, ht⟩ := ih
      (fun tx' htx' => hall tx' (List.mem_append_left _ htx')) fun n hn => by
        have := hshort n (by rw [List.length_append]; omega)
        rwa [hleading n hn] at this
    have hlast := hshort (txs ++ [tx]).length le_rfl
    rw [List.take_length] at hlast
    obtain ⟨t, hstep, htvalue, ht'⟩ := addTransaction_total ht hvalue
      (hall tx (List.mem_append_right _ (List.mem_singleton.mpr rfl))) hlast
    refine ⟨t, ?_, htvalue, ht'⟩
    rw [sumTransactions_snoc, htotal]
    exact hstep

/-! ## The text of a balance -/

/-- The sign of a total is that of its value. -/
theorem Total.neg_iff {a : Decimal} (ha : Total m a) : a.neg = true ↔ a.signed < 0 := by
  rw [Decimal.signed]
  constructor
  · intro h
    have := ha.sign h
    rw [if_pos h]
    omega
  · intro h
    split at h
    · assumption
    · omega

/-- Totals of one value are one decimal exactly if they have the same places. -/
theorem Total.eq_iff {a b : Decimal} (ha : Total m a) (hb : Total k b) (h : a.value = b.value) :
    a = b ↔ m = k := by
  constructor
  · rintro rfl
    have := ha.exp.symm.trans hb.exp
    omega
  · rintro rfl
    have hexp : a.exp = b.exp := ha.exp.trans hb.exp.symm
    have hsigned : a.signed = b.signed := by
      rw [Decimal.value, Decimal.value, hexp] at h
      exact_mod_cast mul_right_cancel₀ (by positivity) h
    have hcoeff : a.coeff = b.coeff := by
      rw [← a.signed_natAbs, hsigned, b.signed_natAbs]
    have hneg : a.neg = b.neg := by
      rw [Bool.eq_iff_iff, ha.neg_iff, hb.neg_iff, hsigned]
    cases a
    cases b
    cases hexp
    cases hcoeff
    cases hneg
    rfl

theorem balance_total {db : AccountDB} {accountId : String} (hdb : db.Canonical)
    (hun : Unrounded db accountId) :
    ∃ t, db.balance accountId = some t ∧ t.value = db.exactBalance accountId ∧
      Total (db.mostPlaces accountId) t := by
  have hall : ∀ tx ∈ db.listTransactions accountId, ∃ amt, parse tx.amount = some amt ∧
      Amount amt := by
    intro tx htx
    obtain ⟨body, account, now, h⟩ := hdb tx (mem_listTransactions.mp htx).1
    exact amount_of_stored h
  rw [← exactBalance_listing, ← mostPlaces_listing]
  exact sumTransactions_total hall hun

/-- **Balances as text.**  For any two account histories of stored amounts in which no sum is
rounded, and whose exact balances are equal, `get_balance` and `get_account` report the same text
for both exactly if their longest amounts have equally many decimal places. -/
theorem balance_text_iff (db db' : AccountDB) (accountId accountId' : String)
    (hdb : db.Canonical) (hdb' : db'.Canonical) (hun : Unrounded db accountId)
    (hun' : Unrounded db' accountId')
    (hsame : db.exactBalance accountId = db'.exactBalance accountId') :
    (∃ r r', getBalance db accountId = some r ∧ getBalance db' accountId' = some r' ∧
      (r.balance = r'.balance ↔ db.mostPlaces accountId = db'.mostPlaces accountId')) ∧
    ∃ r r', getAccount db accountId = some r ∧ getAccount db' accountId' = some r' ∧
      (r.balance = r'.balance ↔ db.mostPlaces accountId = db'.mostPlaces accountId') := by
  obtain ⟨t, ht, hvalue, htotal⟩ := balance_total hdb hun
  obtain ⟨t', ht', hvalue', htotal'⟩ := balance_total hdb' hun'
  have htext : formatF t = formatF t' ↔ db.mostPlaces accountId = db'.mostPlaces accountId' := by
    have hexp := htotal.exp
    have hexp' := htotal'.exp
    rw [formatF_inj (by omega) (by omega)]
    exact htotal.eq_iff htotal' (by rw [hvalue, hvalue', hsame])
  have hbalance : ∀ {db : AccountDB} {accountId : String} {t : Decimal},
      db.balance accountId = some t →
        getBalance db accountId =
          some (balanceResponse accountId (db.listTransactions accountId) t) ∧
        getAccount db accountId =
          some (accountDetail accountId (db.listTransactions accountId) t) := by
    intro db accountId t h
    rw [getBalance, getAccount, h]
    exact ⟨rfl, rfl⟩
  exact ⟨⟨_, _, (hbalance ht).1, (hbalance ht').1, htext⟩,
    _, _, (hbalance ht).2, (hbalance ht').2, htext⟩

/-! ## Three accounts -/

/-- Two dimes as one amount. -/
def fifth : AccountDB :=
  { transactions := ⟨[sampleCredit "evt-3" "0.2"], by decide⟩, auditLog := [] }

/-- Two amounts that add up to two. -/
def halves : AccountDB :=
  { transactions := ⟨[sampleCredit "evt-1" "1.5", sampleCredit "evt-2" "0.5"], by decide⟩
    auditLog := [] }

/-- Two as one amount. -/
def whole : AccountDB :=
  { transactions := ⟨[sampleCredit "evt-3" "2"], by decide⟩, auditLog := [] }

theorem balance_text_iff_two_dimes : ∃ r r', getBalance twoDimes "acct-123" = some r ∧
    getBalance fifth "acct-123" = some r' ∧ r.balance = r'.balance := by
  have hdb : twoDimes.Canonical := by
    intro tx htx
    rcases List.mem_pair.mp htx with rfl | rfl
    · exact sampleCredit_stored ⟨false, 1, -1⟩ (by decide) (by decide) (by decide +kernel)
    · exact sampleCredit_stored ⟨false, 1, -1⟩ (by decide) (by decide) (by decide +kernel)
  have hdb' : fifth.Canonical := by
    intro tx htx
    rw [List.mem_singleton.mp htx]
    exact sampleCredit_stored ⟨false, 2, -1⟩ (by decide) (by decide) (by decide +kernel)
  obtain ⟨r, r', hr, hr', hiff⟩ := (balance_text_iff twoDimes fifth "acct-123" "acct-123" hdb hdb'
    (by decide +kernel) (by decide +kernel) (by decide +kernel)).1
  exact ⟨r, r', hr, hr', hiff.mpr (by decide +kernel)⟩

/-- The balance of `halves` is printed `2.0`, that of `whole` is printed `2`. -/
theorem balance_text_differs :
    ¬ ∀ (db db' : AccountDB) (accountId accountId' : String), db.Canonical → db'.Canonical →
      Unrounded db accountId → Unrounded db' accountId' →
      db.exactBalance accountId = db'.exactBalance accountId' →
        (getBalance db accountId).map (·.balance) =
          (getBalance db' accountId').map (·.balance) := by
  intro h
  have hdb : halves.Canonical := by
    intro tx htx
    rcases List.mem_pair.mp htx with rfl | rfl
    · exact sampleCredit_stored ⟨false, 15, -1⟩ (by decide) (by decide) (by decide +kernel)
    · exact sampleCredit_stored ⟨false, 5, -1⟩ (by decide) (by decide) (by decide +kernel)
  have hdb' : whole.Canonical := by
    intro tx htx
    rw [List.mem_singleton.mp htx]
    exact sampleCredit_stored ⟨false, 2, 0⟩ (by decide) (by decide) (by decide +kernel)
  have hsame := h halves whole "acct-123" "acct-123" hdb hdb' (by decide +kernel)
    (by decide +kernel) (by decide +kernel)
  exact absurd hsame (by decide +kernel)

/-- An amount that has been paid back leaves `0.0`, an account without rows shows `0`. -/
example : (sumTransactions [sampleCredit "evt-1" "0.1",
      { sampleCredit "evt-2" "0.1" with type := .debit }]).map formatF = some "0.0" ∧
    (sumTransactions []).map formatF = some "0" := by decide +kernel

end EventLedger
