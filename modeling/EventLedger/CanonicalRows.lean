import EventLedger.CanonicalAmounts

/-!
# Both services store the same text

The Gateway canonicalises an amount and prints a timestamp; the Account Service
reads both from the payload, canonicalises and prints them again.  Neither changes
a text that has been through it once, so the two rows agree wherever they have a
field in common (`rows_agree`).

The round trips are of the library on decimals and of `DateTime`; what is added here
is that a validated body is one they apply to.
-/
namespace EventLedger

open DecimalFloat

/-- **The row of a forwarded event.**  It has the fields of the event, read and written once
more. -/
theorem stored_of_payload {body : EventRequest} {amount : String} {request : TransactionRequest}
    (hamount : amountStr body.amount = some amount)
    (hvalid : TransactionRequest.validate (body.payload amount) = some request)
    (accountId : String) (now : DateTime) :
    request.stored accountId now = some
      { eventId := body.eventId, accountId := accountId, type := body.type, amount := amount,
        currency := body.currency, eventTimestamp := body.eventTimestamp.isoformat,
        createdAt := now.isoformat } := by
  obtain ⟨hid, htype, hcurrency, hparse, htimestamp⟩ := TransactionRequest.validate_fields hvalid
  have hprint : amountStr request.amount = some amount := by
    obtain ⟨p, hp, hcanonical⟩ := canonical_idempotent hamount
    cases hp.symm.trans hparse
    exact hcanonical
  have hread : request.eventTimestamp = body.eventTimestamp :=
    Option.some.inj (htimestamp.symm.trans (fromIsoformat_isoformat _))
  rw [TransactionRequest.stored, hprint, hid, htype, hcurrency, hread]
  rfl

/-- **Rows agree.**  Whenever an event's payload passes the Account Service's validation, the row
built from the payload has the event id, the type, the amount, the currency and the timestamp of the
Gateway's row, as text.  A canonical amount is left alone when it is read and canonicalised again,
and a printed timestamp when it is read and printed again. -/
theorem rows_agree (body : EventRequest) (amount : String) (request : TransactionRequest)
    (accountId : String) (received applied : DateTime)
    (hamount : amountStr body.amount = some amount)
    (hvalid : TransactionRequest.validate (body.payload amount) = some request) :
    (∃ tx, request.stored accountId applied = some tx ∧
      tx.eventId = (body.stored amount received).eventId ∧
      tx.type = (body.stored amount received).type ∧
      tx.amount = (body.stored amount received).amount ∧
      tx.currency = (body.stored amount received).currency ∧
      tx.eventTimestamp = (body.stored amount received).eventTimestamp) ∧
    (∀ d s, amountStr d = some s → (parse s).bind amountStr = some s) ∧
    ∀ t : DateTime, (fromIsoformat t.isoformat).map DateTime.isoformat = some t.isoformat := by
  refine ⟨⟨_, stored_of_payload hamount hvalid accountId applied, rfl, rfl, rfl, rfl, rfl⟩,
    fun d s hs => ?_, fun t => ?_⟩
  · obtain ⟨p, hp, hagain⟩ := canonical_idempotent hs
    rw [hp]
    exact hagain
  · rw [fromIsoformat_isoformat]
    rfl

/-- An amount of 29 digits is rounded once, and printed with more digits than the precision. -/
theorem rows_agree_rounded : ∃ request tx,
    TransactionRequest.validate (longAmount.payload "10000000000000000000000000000") =
      some request ∧
    request.stored "acct-123" sampleTimestamp = some tx ∧
    tx.amount = "10000000000000000000000000000" := by
  have hvalid : (TransactionRequest.validate
      (longAmount.payload "10000000000000000000000000000")).isSome = true := by decide +kernel
  obtain ⟨request, hrequest⟩ := Option.isSome_iff_exists.mp hvalid
  obtain ⟨⟨tx, htx, -, -, hsame, -⟩, -⟩ := rows_agree longAmount "10000000000000000000000000000"
    request "acct-123" sampleTimestamp sampleTimestamp (by decide +kernel) hrequest
  exact ⟨request, tx, hrequest, htx, hsame⟩

end EventLedger
