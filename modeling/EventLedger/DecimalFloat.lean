import EventLedger.DecimalDigits
import Mathlib.Algebra.Order.Field.Rat
import Mathlib.Algebra.Order.Ring.Abs
import Mathlib.Algebra.Order.Field.Power
import Mathlib.Tactic.FieldSimp
import Mathlib.Tactic.LinearCombination
import Mathlib.Tactic.NormNum
import Mathlib.Tactic.Positivity

/-!
# Decimal floating point

A finite decimal is a sign, a coefficient and an exponent, and arithmetic on it
is exact arithmetic followed by one rounding to a context (`fix`): at most `prec`
digits, half to even, an exponent no lower than `etiny`, and a trapped overflow
above `emax`.  This is the arithmetic of the General Decimal Arithmetic
specification, as Python's `decimal` implements it.

The one question a ledger asks of it is when the rounding changes nothing.
`fix_exact_iff` answers it: exactly when the value is `Representable`, that is
some `prec`-digit integer times a power of ten within range.
-/
namespace DecimalFloat

open DecimalDigits

/-- A finite decimal number `± coeff · 10 ^ exp`. -/
structure Decimal where
  neg : Bool
  coeff : ℕ
  exp : ℤ
  deriving DecidableEq, Repr

/-- Precision and exponent range of the arithmetic. -/
structure Context where
  prec : ℕ
  emin : ℤ
  emax : ℤ
  prec_pos : 0 < prec
  range : emin ≤ 0 ∧ 0 ≤ emax

namespace Context
variable (ctx : Context)

/-- The exponent of the smallest subnormal number. -/
def etiny : ℤ := ctx.emin - ctx.prec + 1

/-- The exponent of the largest number. -/
def etop : ℤ := ctx.emax - ctx.prec + 1

theorem etiny_le_etop : ctx.etiny ≤ ctx.etop := by
  have := ctx.range
  unfold etiny etop
  omega

theorem etop_le_emax : ctx.etop ≤ ctx.emax := by
  have := ctx.prec_pos
  unfold etop
  omega

end Context

namespace Decimal

/-- The coefficient with its sign. -/
def signed (d : Decimal) : ℤ := if d.neg then -d.coeff else d.coeff

/-- The number a decimal denotes. -/
def value (d : Decimal) : ℚ := d.signed * (10 : ℚ) ^ d.exp

theorem signed_natAbs (d : Decimal) : d.signed.natAbs = d.coeff := by
  unfold signed
  split <;> omega

theorem abs_value (d : Decimal) : |d.value| = d.coeff * (10 : ℚ) ^ d.exp := by
  have hpow : |(10 : ℚ) ^ d.exp| = (10 : ℚ) ^ d.exp := abs_of_nonneg (by positivity)
  have hsigned : |(d.signed : ℚ)| = d.coeff := by
    rw [← Int.cast_abs, Int.abs_eq_natAbs, d.signed_natAbs]
    simp
  rw [value, abs_mul, hsigned, hpow]

@[simp] theorem value_eq_zero {d : Decimal} : d.value = 0 ↔ d.coeff = 0 := by
  have hpow : (10 : ℚ) ^ d.exp ≠ 0 := by positivity
  rw [← abs_eq_zero, abs_value, mul_eq_zero, or_iff_left hpow, Nat.cast_eq_zero]

/-- Above zero: the sign is plus and the coefficient is not zero. -/
def Positive (d : Decimal) : Prop := d.neg = false ∧ d.coeff ≠ 0

instance (d : Decimal) : Decidable d.Positive := inferInstanceAs (Decidable (_ ∧ _))

theorem positive_iff {d : Decimal} : d.Positive ↔ 0 < d.value := by
  have hpow : (0 : ℚ) < (10 : ℚ) ^ d.exp := by positivity
  rw [value, mul_pos_iff_of_pos_right hpow, Int.cast_pos, Positive, signed]
  cases d.neg
  · simp [Nat.pos_iff_ne_zero]
  · simp

/-- Two decimals of the same sign are equal as soon as their magnitudes are. -/
theorem value_congr {d d' : Decimal} (hneg : d'.neg = d.neg)
    (h : (d'.coeff : ℚ) * (10 : ℚ) ^ d'.exp = d.coeff * (10 : ℚ) ^ d.exp) :
    d'.value = d.value := by
  unfold value signed
  rw [hneg]
  split
  · push_cast
    linear_combination -h
  · exact_mod_cast h

end Decimal

/-- `q` is written exactly with `prec` digits and an exponent in range. -/
def Representable (ctx : Context) (q : ℚ) : Prop :=
  ∃ (c : ℕ) (e : ℤ), |q| = c * (10 : ℚ) ^ e ∧ c < 10 ^ ctx.prec ∧ ctx.etiny ≤ e ∧ e ≤ ctx.etop

theorem Representable.zero (ctx : Context) : Representable ctx 0 :=
  ⟨0, ctx.etiny, by simp, by positivity, le_refl _, ctx.etiny_le_etop⟩

theorem Representable.neg {ctx : Context} {q : ℚ} (h : Representable ctx q) :
    Representable ctx (-q) := by
  unfold Representable
  rw [abs_neg]
  exact h

/-! ## Rounding -/

/-- `c / 10 ^ k`, to the nearest integer and half to even. -/
def roundHalfEven (c k : ℕ) : ℕ :=
  let q := c / 10 ^ k
  let r := c % 10 ^ k
  if 2 * r < 10 ^ k ∨ (2 * r = 10 ^ k ∧ q % 2 = 0) then q else q + 1

theorem roundHalfEven_of_dvd {c k : ℕ} (h : 10 ^ k ∣ c) : roundHalfEven c k = c / 10 ^ k := by
  have hr : c % 10 ^ k = 0 := Nat.mod_eq_zero_of_dvd h
  have hpos : 2 * (c % 10 ^ k) < 10 ^ k := by
    rw [hr]
    positivity
  simp only [roundHalfEven]
  rw [if_pos (Or.inl hpos)]

theorem roundHalfEven_le (c k : ℕ) : roundHalfEven c k ≤ c / 10 ^ k + 1 := by
  simp only [roundHalfEven]
  split <;> omega

/-- Rounding away all but `p` digits leaves at most `10 ^ p`. -/
theorem roundHalfEven_le_pow {c k p : ℕ} (h : numDigits c ≤ p + k) :
    roundHalfEven c k ≤ 10 ^ p := by
  have hc : c < 10 ^ p * 10 ^ k := by
    rw [← pow_add]
    exact lt_of_lt_of_le (lt_pow_numDigits c) (Nat.pow_le_pow_right (by norm_num) h)
  have hq : c / 10 ^ k < 10 ^ p := Nat.div_lt_of_lt_mul (by rwa [mul_comm] at hc)
  exact (roundHalfEven_le c k).trans hq

/-- The exponent `d` is rounded to: room for `prec` digits, but never below `etiny`. -/
def expMin (ctx : Context) (d : Decimal) : ℤ :=
  max (numDigits d.coeff + d.exp - ctx.prec) ctx.etiny

/-- Rounding to the context; `none` is the trapped overflow. -/
def fix (ctx : Context) (d : Decimal) : Option Decimal :=
  if d.coeff = 0 then
    some { d with exp := min (max d.exp ctx.etiny) ctx.emax }
  else if ctx.etop < expMin ctx d then
    none
  else if d.exp < expMin ctx d then
    let c := roundHalfEven d.coeff (expMin ctx d - d.exp).toNat
    if ctx.prec < numDigits c then
      -- a carry out of the top digit: 99…95 became 100…0
      if ctx.etop < expMin ctx d + 1 then none
      else some { d with coeff := c / 10, exp := expMin ctx d + 1 }
    else
      some { d with coeff := c, exp := expMin ctx d }
  else
    some d

/-- `coeff · 10 ^ (k + e)` is the coefficient shifted by `k`, at exponent `e`. -/
theorem shift_mul (c k : ℕ) (e : ℤ) :
    ((c * 10 ^ k : ℕ) : ℚ) * (10 : ℚ) ^ e = c * (10 : ℚ) ^ (e + k) := by
  rw [zpow_add₀ (by norm_num), zpow_natCast]
  push_cast
  ring

/-- A coefficient divided by a power of ten that divides it, at the raised exponent. -/
theorem div_mul_zpow {c k : ℕ} (e : ℤ) (h : 10 ^ k ∣ c) :
    ((c / 10 ^ k : ℕ) : ℚ) * (10 : ℚ) ^ (e + k) = c * (10 : ℚ) ^ e := by
  obtain ⟨m, rfl⟩ := h
  rw [Nat.mul_div_cancel_left m (by positivity), mul_comm (10 ^ k) m, shift_mul]

/-- Comparing magnitudes: `c · 10 ^ e = c' · 10 ^ e'` with `e ≤ e'` says what `c` is. -/
theorem coeff_of_le {c c' : ℕ} {e e' : ℤ} (he : e ≤ e')
    (h : (c : ℚ) * (10 : ℚ) ^ e = c' * (10 : ℚ) ^ e') : c = c' * 10 ^ (e' - e).toNat := by
  have hsplit : e + ((e' - e).toNat : ℤ) = e' := by omega
  have hpos : (10 : ℚ) ^ e ≠ 0 := by positivity
  have hshift := shift_mul c' (e' - e).toNat e
  rw [hsplit, ← h] at hshift
  exact_mod_cast (mul_right_cancel₀ hpos hshift).symm

/-- A magnitude with `numDigits c` digits at `e` is at least `10 ^ (e + numDigits c - 1)`, so it
lies below `c' · 10 ^ e'` only if its leading digit does. -/
theorem leading_le {c c' p : ℕ} {e e' : ℤ} (hc : c ≠ 0) (hc' : c' < 10 ^ p)
    (h : (c : ℚ) * (10 : ℚ) ^ e = c' * (10 : ℚ) ^ e') : numDigits c + e ≤ p + e' := by
  have hten : (0 : ℚ) < 10 := by norm_num
  have hlow : (10 : ℚ) ^ ((numDigits c : ℤ) - 1 + e) ≤ c * (10 : ℚ) ^ e := by
    have hnat : (10 : ℚ) ^ (numDigits c - 1) ≤ c := by exact_mod_cast pow_numDigits_le hc
    have hcast : ((numDigits c : ℤ) - 1) = ((numDigits c - 1 : ℕ) : ℤ) := by
      have := numDigits_pos c
      omega
    rw [zpow_add₀ hten.ne', hcast, zpow_natCast]
    exact mul_le_mul_of_nonneg_right hnat (by positivity)
  have hhigh : (c' : ℚ) * (10 : ℚ) ^ e' < (10 : ℚ) ^ ((p : ℤ) + e') := by
    rw [zpow_add₀ hten.ne', zpow_natCast]
    exact mul_lt_mul_of_pos_right (by exact_mod_cast hc') (by positivity)
  have hlt : (10 : ℚ) ^ ((numDigits c : ℤ) - 1 + e) < (10 : ℚ) ^ ((p : ℤ) + e') :=
    lt_of_le_of_lt hlow (h ▸ hhigh)
  have := (zpow_lt_zpow_iff_right₀ (by norm_num : (1 : ℚ) < 10)).mp hlt
  omega

section Fix
variable {ctx : Context} {d d' : Decimal}

theorem etiny_le_expMin (ctx : Context) (d : Decimal) : ctx.etiny ≤ expMin ctx d :=
  le_max_right _ _

/-- Rounding never changes the sign. -/
theorem fix_neg (h : fix ctx d = some d') : d'.neg = d.neg := by
  simp only [fix] at h
  split_ifs at h <;> cases h <;> rfl

/-- A decimal whose coefficient and exponent are in range denotes a representable number. -/
theorem Representable.of_range (hc : d.coeff < 10 ^ ctx.prec) (hlow : ctx.etiny ≤ d.exp)
    (hhigh : d.exp ≤ ctx.etop) : Representable ctx d.value :=
  ⟨d.coeff, d.exp, d.abs_value, hc, hlow, hhigh⟩

/-- A short coefficient may stand above `etop`: it is padded with zeros until it fits. -/
theorem Representable.of_digits
    (hdigits : (numDigits d.coeff : ℤ) + d.exp - ctx.prec ≤ expMin ctx d)
    (hround : expMin ctx d ≤ d.exp) (hhigh : expMin ctx d ≤ ctx.etop) :
    Representable ctx d.value := by
  have hshift : expMin ctx d + ((d.exp - expMin ctx d).toNat : ℤ) = d.exp := by omega
  have hlen : numDigits d.coeff + (d.exp - expMin ctx d).toNat ≤ ctx.prec := by omega
  refine ⟨d.coeff * 10 ^ (d.exp - expMin ctx d).toNat, expMin ctx d, ?_, ?_,
    etiny_le_expMin ctx d, hhigh⟩
  · rw [Decimal.abs_value, shift_mul, hshift]
  · calc d.coeff * 10 ^ (d.exp - expMin ctx d).toNat
        < 10 ^ numDigits d.coeff * 10 ^ (d.exp - expMin ctx d).toNat :=
          Nat.mul_lt_mul_of_pos_right (lt_pow_numDigits _) (by positivity)
      _ = 10 ^ (numDigits d.coeff + (d.exp - expMin ctx d).toNat) := (pow_add _ _ _).symm
      _ ≤ 10 ^ ctx.prec := Nat.pow_le_pow_right (by norm_num) hlen

/-- Everything `fix` returns fits in the context. -/
theorem fix_representable (h : fix ctx d = some d') : Representable ctx d'.value := by
  have hlow := etiny_le_expMin ctx d
  have hmin : (numDigits d.coeff : ℤ) + d.exp - ctx.prec ≤ expMin ctx d := le_max_left _ _
  simp only [fix] at h
  split_ifs at h with hzero hover hround hcarry htop <;> cases h
  · -- zero
    have hvalue : Decimal.value { d with exp := min (max d.exp ctx.etiny) ctx.emax } = 0 :=
      Decimal.value_eq_zero.mpr hzero
    rw [hvalue]
    exact Representable.zero ctx
  · -- rounded, with a carry
    have hle : roundHalfEven d.coeff (expMin ctx d - d.exp).toNat ≤ 10 ^ ctx.prec :=
      roundHalfEven_le_pow (by omega)
    have hlt : roundHalfEven d.coeff (expMin ctx d - d.exp).toNat / 10 < 10 ^ ctx.prec :=
      lt_of_le_of_lt (Nat.div_le_div_right hle) (Nat.div_lt_self (by positivity) (by norm_num))
    exact Representable.of_range hlt (le_trans hlow (Int.le_add_of_nonneg_right (by norm_num)))
      (not_lt.mp htop)
  · -- rounded
    have hlt : roundHalfEven d.coeff (expMin ctx d - d.exp).toNat < 10 ^ ctx.prec :=
      lt_of_lt_of_le (lt_pow_numDigits _)
        (Nat.pow_le_pow_right (by norm_num) (not_lt.mp hcarry))
    exact Representable.of_range hlt hlow (not_lt.mp hover)
  · -- unchanged
    exact Representable.of_digits hmin (not_lt.mp hround) (not_lt.mp hover)

/-- A representable value survives `fix` unchanged. -/
theorem fix_exact (h : Representable ctx d.value) :
    ∃ d', fix ctx d = some d' ∧ d'.value = d.value := by
  obtain ⟨c, e, hval, hc, hlow, hhigh⟩ := h
  rw [Decimal.abs_value] at hval
  by_cases hzero : d.coeff = 0
  · refine ⟨{ d with exp := min (max d.exp ctx.etiny) ctx.emax }, by simp [fix, hzero], ?_⟩
    rw [Decimal.value_eq_zero.mpr hzero, Decimal.value_eq_zero]
    exact hzero
  -- the rounding exponent lies at or below `e`, so every digit rounded away is a zero
  have hlead := leading_le hzero hc hval
  have hmin : expMin ctx d ≤ e := max_le (by omega) hlow
  have hover : ¬ ctx.etop < expMin ctx d := by omega
  by_cases hround : d.exp < expMin ctx d
  · have hdvd : 10 ^ (expMin ctx d - d.exp).toNat ∣ d.coeff := by
      rw [coeff_of_le (by omega) hval]
      exact (Nat.pow_dvd_pow 10 (by omega)).mul_left c
    have hc' := roundHalfEven_of_dvd hdvd
    have hvalue := div_mul_zpow d.exp hdvd
    rw [show d.exp + ((expMin ctx d - d.exp).toNat : ℤ) = expMin ctx d by omega] at hvalue
    have hlen : numDigits d.coeff ≤ (expMin ctx d - d.exp).toNat + ctx.prec := by
      have : (numDigits d.coeff : ℤ) + d.exp - ctx.prec ≤ expMin ctx d := le_max_left _ _
      omega
    have hcarry : ¬ ctx.prec < numDigits (d.coeff / 10 ^ (expMin ctx d - d.exp).toNat) := by
      refine not_lt.mpr (numDigits_le ctx.prec_pos (Nat.div_lt_of_lt_mul ?_))
      rw [← pow_add]
      exact lt_of_lt_of_le (lt_pow_numDigits _) (Nat.pow_le_pow_right (by norm_num) hlen)
    refine ⟨⟨d.neg, d.coeff / 10 ^ (expMin ctx d - d.exp).toNat, expMin ctx d⟩, ?_,
      Decimal.value_congr rfl hvalue⟩
    simp only [fix, if_neg hzero, if_neg hover, if_pos hround, hc', if_neg hcarry]
  · exact ⟨d, by simp only [fix, if_neg hzero, if_neg hover, if_neg hround], rfl⟩

/-- A decimal in range is not changed at all. -/
theorem fix_self (hc : d.coeff < 10 ^ ctx.prec) (hlow : ctx.etiny ≤ d.exp)
    (hhigh : d.exp ≤ ctx.etop) : fix ctx d = some d := by
  by_cases hzero : d.coeff = 0
  · have hexp : min (max d.exp ctx.etiny) ctx.emax = d.exp := by
      rw [max_eq_left hlow, min_eq_left (hhigh.trans ctx.etop_le_emax)]
    rw [fix, if_pos hzero, hexp]
  · have hdigits := numDigits_le ctx.prec_pos hc
    have hmin : expMin ctx d ≤ d.exp := max_le (by omega) hlow
    rw [fix, if_neg hzero, if_neg (not_lt.mpr (hmin.trans hhigh)), if_neg (not_lt.mpr hmin)]

/-- Rounding never lowers the exponent. -/
theorem fix_le_exp (hzero : d.coeff ≠ 0) (h : fix ctx d = some d') : d.exp ≤ d'.exp := by
  simp only [fix, if_neg hzero] at h
  split_ifs at h with hover hround <;> cases h
  · exact hround.le.trans (Int.le_add_of_nonneg_right (by norm_num))
  · exact hround.le
  · exact le_rfl

/-- **When rounding is exact.**  `fix` returns the same number precisely on representable values. -/
theorem fix_exact_iff :
    (∃ d', fix ctx d = some d' ∧ d'.value = d.value) ↔ Representable ctx d.value := by
  constructor
  · rintro ⟨d', h, hvalue⟩
    exact hvalue ▸ fix_representable h
  · exact fix_exact

end Fix

/-! ## Arithmetic -/

/-- Strip trailing zeros from a coefficient, as far as `emax` allows; the fuel counts digits. -/
def strip (ctx : Context) : ℕ → Decimal → Decimal
  | 0, d => d
  | fuel + 1, d =>
    if d.coeff % 10 = 0 ∧ d.exp < ctx.emax then
      strip ctx fuel { d with coeff := d.coeff / 10, exp := d.exp + 1 }
    else d

/-- Round, then the shortest coefficient of that value; zero becomes `0E0`. -/
def normalize (ctx : Context) (d : Decimal) : Option Decimal :=
  (fix ctx d).map fun r =>
    if r.coeff = 0 then { r with exp := 0 } else strip ctx (numDigits r.coeff) r

/-- The coefficient of `d` at the lower exponent `e`, with its sign. -/
def alignedTo (e : ℤ) (d : Decimal) : ℤ := d.signed * 10 ^ (d.exp - e).toNat

/-- The unrounded sum; an exact zero is negative only if both operands are. -/
def addExact (a b : Decimal) : Decimal :=
  let e := min a.exp b.exp
  let n := alignedTo e a + alignedTo e b
  { neg := if n = 0 then a.neg && b.neg else decide (n < 0), coeff := n.natAbs, exp := e }

/-- `a + b`, rounded once. -/
def add (ctx : Context) (a b : Decimal) : Option Decimal := fix ctx (addExact a b)

/-- `-d`, rounded; the negation of a zero is `+0`. -/
def neg (ctx : Context) (d : Decimal) : Option Decimal :=
  fix ctx (if d.coeff = 0 then { d with neg := false } else { d with neg := !d.neg })

theorem strip_neg (ctx : Context) (fuel : ℕ) (d : Decimal) : (strip ctx fuel d).neg = d.neg := by
  induction fuel generalizing d with
  | zero => rfl
  | succ fuel ih =>
    unfold strip
    split
    · rw [ih]
    · rfl

@[simp] theorem strip_value (ctx : Context) (fuel : ℕ) (d : Decimal) :
    (strip ctx fuel d).value = d.value := by
  induction fuel generalizing d with
  | zero => rfl
  | succ fuel ih =>
    unfold strip
    split
    · rename_i h
      have hdvd : 10 ^ 1 ∣ d.coeff := by simpa using Nat.dvd_of_mod_eq_zero h.1
      rw [ih]
      exact Decimal.value_congr rfl (by simpa using div_mul_zpow d.exp hdvd)
    · rfl

/-- Normalising changes the value only where rounding does. -/
theorem normalize_value {ctx : Context} {d d' : Decimal} (h : normalize ctx d = some d') :
    ∃ r, fix ctx d = some r ∧ d'.value = r.value := by
  obtain ⟨r, hr, rfl⟩ := Option.map_eq_some_iff.mp h
  refine ⟨r, hr, ?_⟩
  split
  · rename_i hzero
    rw [Decimal.value_eq_zero.mpr hzero, Decimal.value_eq_zero]
    exact hzero
  · exact strip_value ctx _ r

theorem normalize_representable {ctx : Context} {d d' : Decimal} (h : normalize ctx d = some d') :
    Representable ctx d'.value := by
  obtain ⟨r, hr, hvalue⟩ := normalize_value h
  exact hvalue ▸ fix_representable hr

theorem alignedTo_value {e : ℤ} {d : Decimal} (h : e ≤ d.exp) :
    (alignedTo e d : ℚ) * (10 : ℚ) ^ e = d.value := by
  have hexp : d.exp = e + ((d.exp - e).toNat : ℤ) := by omega
  have hpow : (10 : ℚ) ^ d.exp = (10 : ℚ) ^ e * (10 : ℚ) ^ (d.exp - e).toNat := by
    rw [← zpow_natCast, ← zpow_add₀ (by norm_num), ← hexp]
  rw [Decimal.value, hpow, alignedTo]
  push_cast
  ring

@[simp] theorem addExact_value (a b : Decimal) : (addExact a b).value = a.value + b.value := by
  have hsigned : (addExact a b).signed =
      alignedTo (min a.exp b.exp) a + alignedTo (min a.exp b.exp) b := by
    generalize hn : alignedTo (min a.exp b.exp) a + alignedTo (min a.exp b.exp) b = n
    simp only [addExact, Decimal.signed, hn]
    by_cases hzero : n = 0
    · simp [hzero]
    · by_cases hneg : n < 0
      · rw [if_neg hzero, decide_eq_true hneg, if_pos rfl]
        omega
      · rw [if_neg hzero, decide_eq_false hneg, if_neg Bool.false_ne_true]
        omega
  rw [Decimal.value, hsigned, ← alignedTo_value (min_le_left a.exp b.exp),
    ← alignedTo_value (min_le_right a.exp b.exp)]
  simp only [addExact]
  push_cast
  ring

/-- A sum is a negative zero only if its first operand is one. -/
theorem addExact_neg {a b : Decimal} (ha : a.neg = true → a.coeff ≠ 0)
    (hneg : (addExact a b).neg = true) : (addExact a b).coeff ≠ 0 := by
  generalize hn : alignedTo (min a.exp b.exp) a + alignedTo (min a.exp b.exp) b = n
  simp only [addExact, hn] at hneg ⊢
  intro hcoeff
  have hzero : n = 0 := Int.natAbs_eq_zero.mp hcoeff
  rw [if_pos hzero, Bool.and_eq_true] at hneg
  -- both operands are negative or zero, and the first is not zero
  have hfirst : alignedTo (min a.exp b.exp) a < 0 := by
    rw [alignedTo, Decimal.signed, if_pos hneg.1]
    have hpos : (0 : ℤ) < a.coeff := by
      have := ha hneg.1
      omega
    exact mul_neg_of_neg_of_pos (by omega) (by positivity)
  have hsecond : alignedTo (min a.exp b.exp) b ≤ 0 := by
    rw [alignedTo, Decimal.signed, if_pos hneg.2]
    exact mul_nonpos_of_nonpos_of_nonneg (by omega) (by positivity)
  omega

/-- **Addition.**  The rounded sum is the exact sum precisely when that is representable. -/
theorem add_exact_iff {ctx : Context} {a b : Decimal} :
    (∃ s, add ctx a b = some s ∧ s.value = a.value + b.value) ↔
      Representable ctx (a.value + b.value) := by
  have h : (∃ s, fix ctx (addExact a b) = some s ∧ s.value = (addExact a b).value) ↔
      Representable ctx (addExact a b).value := fix_exact_iff
  rwa [addExact_value] at h

/-- Negating a representable number is exact. -/
theorem neg_exact {ctx : Context} {d : Decimal} (h : Representable ctx d.value) :
    ∃ n, neg ctx d = some n ∧ n.value = -d.value := by
  have hvalue : (if d.coeff = 0 then { d with neg := false } else { d with neg := !d.neg } :
      Decimal).value = -d.value := by
    split
    · rename_i hzero
      rw [Decimal.value_eq_zero.mpr hzero, neg_zero, Decimal.value_eq_zero]
      exact hzero
    · simp only [Decimal.value, Decimal.signed]
      cases d.neg <;> simp
  rw [← hvalue]
  exact fix_exact (hvalue ▸ h.neg)

end DecimalFloat
