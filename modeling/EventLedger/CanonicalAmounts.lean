import EventLedger.Models

/-!
# Canonical amounts

Both services rewrite an amount before they store or forward it.  The rewritten
text is plain and denotes the amount exactly as long as the amount has a
28-digit representation in range; beyond that it is rounded, or refused.

Rewriting is `normalize` in the default context and then printing in fixed-point
notation.  Normalising is where digits are lost, printing loses none, so the condition
is one on the number alone (`Representable`); on such numbers equal texts mean equal
amounts, which is what makes the text fit to be compared.
-/
namespace EventLedger

open DecimalFloat

/-- The amount has a canonical text: plain, denoting the amount exactly, and left alone when it is
read and rewritten again. -/
def CanonicalText (amount : Decimal) : Prop :=
  ∃ s d, amountStr amount = some s ∧ PlainPositive s ∧ parse s = some d ∧
    d.value = amount.value ∧ amountStr d = some s

/-- **One amount.**  A positive amount has a canonical text exactly if it is representable. -/
theorem canonicalText_iff {amount : Decimal} (hpos : amount.Positive) :
    CanonicalText amount ↔ Representable defaultContext amount.value := by
  constructor
  · rintro ⟨s, d, hs, -, hd, hvalue, -⟩
    exact canonical_exact_iff.mp ⟨s, d, hs, hd, hvalue⟩
  · intro h
    obtain ⟨s, d, hs, hd, hvalue⟩ := canonical_exact_iff.mpr h
    obtain ⟨d', hd', hagain⟩ := canonical_idempotent hs
    rw [hd] at hd'
    cases hd'
    exact ⟨s, d, hs, canonical_plainPositive hpos h hs, hd, hvalue, hagain⟩

/-- **Canonical amounts.**  The text both services give an accepted amount is plain and denotes it
exactly, if and only if the amount is a 28-digit decimal in range; and two such amounts get the same
text if and only if they are equal. -/
theorem amount_canonical_iff (body other : EventRequest) :
    (CanonicalText body.amount ↔ Representable defaultContext body.amount.value) ∧
    (Representable defaultContext body.amount.value →
      Representable defaultContext other.amount.value →
      (amountStr body.amount = amountStr other.amount ↔ body.amount.value = other.amount.value)) :=
  ⟨canonicalText_iff body.amount_positive, fun h h' =>
    canonical_inj h h' (body.amount_positive.1.trans other.amount_positive.1.symm)⟩

/-- An amount of 29 digits. -/
def longAmount : EventRequest :=
  { sampleEvent with amount := ⟨false, 10000000000000000000000000001, 0⟩
                     amount_positive := by decide }

/-- The last digit of `longAmount` is rounded away. -/
theorem amount_loses_a_digit : ¬ ∀ body : EventRequest, CanonicalText body.amount := by
  intro h
  obtain ⟨s, d, hs, -, hd, hvalue, -⟩ := h longAmount
  have htext : amountStr longAmount.amount = some "10000000000000000000000000000" := by
    decide +kernel
  rw [htext] at hs
  cases hs
  have hread : parse "10000000000000000000000000000" =
      some ⟨false, 10000000000000000000000000000, 0⟩ := by decide +kernel
  rw [hread] at hd
  cases hd
  exact absurd hvalue (by decide +kernel)

end EventLedger
