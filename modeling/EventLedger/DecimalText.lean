import EventLedger.DecimalFloat

/-!
# Decimals as text

`formatF` prints a decimal in plain fixed-point notation, `parse` reads a numeric
literal.  `parse_formatF` is their round trip, and `Reduced.unique` says that a
normalised number is determined by its sign and value; together they make
`canonical` — normalise, then print — idempotent.

Normalising rounds to the digits of the context first.  `canonical_exact_iff` says
when nothing is lost by it, and on such numbers `canonical` is injective.
-/
namespace DecimalFloat

open DecimalDigits

/-- The digits of a fixed-point rendering: a positive exponent is written out as zeros. -/
def fixedPoint (d : Decimal) : List Char :=
  if 0 ≤ d.exp then
    natDigits (d.coeff * 10 ^ d.exp.toNat)
  else
    natDigits (d.coeff / 10 ^ (-d.exp).toNat) ++
      '.' :: pad (-d.exp).toNat (d.coeff % 10 ^ (-d.exp).toNat)

/-- `format(d, "f")`. -/
def formatF (d : Decimal) : String :=
  String.ofList (if d.neg then '-' :: fixedPoint d else fixedPoint d)

/-- An optional sign. -/
def parseSign : List Char → Bool × List Char
  | '-' :: cs => (true, cs)
  | '+' :: cs => (false, cs)
  | cs => (false, cs)

/-- An optional exponent part, which must be the rest of the literal. -/
def parseExponent : List Char → Option ℤ
  | [] => some 0
  | c :: cs =>
    if c = 'e' ∨ c = 'E' then
      let (negative, ds) := parseSign cs
      if ds ≠ [] ∧ ds.all (·.isDigit) then
        some (if negative then -(readDigits ds) else readDigits ds)
      else none
    else none

/-- An optional fraction: its digits, and what follows. -/
def parseFraction : List Char → List Char × List Char
  | '.' :: cs => leadingDigits cs
  | cs => ([], cs)

/-- A literal without its sign. -/
def parseUnsigned (negative : Bool) (cs : List Char) : Option Decimal :=
  let (int, rest) := leadingDigits cs
  let (frac, rest') := parseFraction rest
  if int ++ frac = [] then none
  else (parseExponent rest').map fun e => ⟨negative, readDigits (int ++ frac), e - frac.length⟩

/-- `Decimal(s)` for a finite numeric literal; anything else is an invalid operation. -/
def parse (s : String) : Option Decimal :=
  let (negative, cs) := parseSign s.toList
  parseUnsigned negative cs

/-- The decimal a fixed-point rendering is read back as: no positive exponent. -/
def Decimal.plain (d : Decimal) : Decimal :=
  if 0 ≤ d.exp then { d with coeff := d.coeff * 10 ^ d.exp.toNat, exp := 0 } else d

@[simp] theorem Decimal.plain_neg (d : Decimal) : d.plain.neg = d.neg := by
  unfold Decimal.plain
  split <;> rfl

@[simp] theorem Decimal.plain_value (d : Decimal) : d.plain.value = d.value := by
  unfold Decimal.plain
  split
  · rename_i h
    refine Decimal.value_congr rfl ?_
    rw [shift_mul, zero_add, Int.toNat_of_nonneg h]
  · rfl

/-! ## The round trip -/

theorem parseUnsigned_fixedPoint (d : Decimal) :
    parseUnsigned d.neg (fixedPoint d) = some d.plain := by
  unfold fixedPoint Decimal.plain
  split
  · have hsplit := leadingDigits_self (natDigits_isDigit (d.coeff * 10 ^ d.exp.toNat))
    simp [parseUnsigned, hsplit, parseFraction, parseExponent, natDigits_ne_nil]
  · rename_i h
    have hpoint : ∀ c ∈ ('.' :: pad (-d.exp).toNat (d.coeff % 10 ^ (-d.exp).toNat)).head?,
        c.isDigit = false := by simp
    have hint := leadingDigits_append (natDigits_isDigit (d.coeff / 10 ^ (-d.exp).toNat)) hpoint
    have hfrac := leadingDigits_self
      (pad_isDigit (-d.exp).toNat (d.coeff % 10 ^ (-d.exp).toNat))
    have hcoeff : readDigits (natDigits (d.coeff / 10 ^ (-d.exp).toNat) ++
        pad (-d.exp).toNat (d.coeff % 10 ^ (-d.exp).toNat)) = d.coeff := by
      rw [readDigits_append, readDigits_natDigits, readDigits_pad, pad_length, Nat.mod_mod]
      exact Nat.div_add_mod' _ _
    have hexp : -max (-d.exp) 0 = d.exp := by omega
    simp [parseUnsigned, hint, parseFraction, hfrac, parseExponent, natDigits_ne_nil, hcoeff, hexp]

theorem fixedPoint_head_isDigit (d : Decimal) :
    ∃ c cs, fixedPoint d = c :: cs ∧ c.isDigit = true := by
  have hdigits : ∀ n, ∃ c cs, natDigits n = c :: cs ∧ c.isDigit = true := by
    intro n
    obtain ⟨c, cs, h⟩ := List.exists_cons_of_ne_nil (natDigits_ne_nil n)
    exact ⟨c, cs, h, natDigits_isDigit n c (by simp [h])⟩
  unfold fixedPoint
  split
  · exact hdigits _
  · obtain ⟨c, cs, h, hc⟩ := hdigits (d.coeff / 10 ^ (-d.exp).toNat)
    exact ⟨c, _, by rw [h, List.cons_append], hc⟩

theorem parseSign_of_isDigit {c : Char} {cs : List Char} (h : c.isDigit = true) :
    parseSign (c :: cs) = (false, c :: cs) := by
  unfold parseSign
  split
  · rename_i heq
    cases heq
    exact absurd h (by decide)
  · rename_i heq
    cases heq
    exact absurd h (by decide)
  · rfl

/-- **Round trip.**  A printed decimal is read back as the same sign and value. -/
theorem parse_formatF (d : Decimal) : parse (formatF d) = some d.plain := by
  obtain ⟨c, cs, hhead, hc⟩ := fixedPoint_head_isDigit d
  have hread := parseUnsigned_fixedPoint d
  cases hneg : d.neg with
  | true =>
    rw [hneg] at hread
    simp [parse, formatF, hneg, parseSign, hread]
  | false =>
    rw [hneg, hhead] at hread
    simp [parse, formatF, hneg, hhead, parseSign_of_isDigit hc, hread]

/-! ## The canonical text of a number -/

/-- What `normalize` returns: `0E0`, or a coefficient with no zero left to strip. -/
def Reduced (ctx : Context) (d : Decimal) : Prop :=
  (d.coeff = 0 ∧ d.exp = 0) ∨ (d.coeff ≠ 0 ∧ d.exp ≤ ctx.emax ∧
    (d.coeff % 10 ≠ 0 ∨ d.exp = ctx.emax))

theorem strip_reduced {ctx : Context} {fuel : ℕ} {d : Decimal} (hc : d.coeff ≠ 0)
    (hfuel : d.coeff < 10 ^ fuel) (he : d.exp ≤ ctx.emax) : Reduced ctx (strip ctx fuel d) := by
  induction fuel generalizing d with
  | zero =>
    rw [pow_zero, Nat.lt_one_iff] at hfuel
    exact absurd hfuel hc
  | succ fuel ih =>
    unfold strip
    split
    · rename_i h
      have hten : d.coeff / 10 ≠ 0 := by omega
      have hlt : d.coeff / 10 < 10 ^ fuel := Nat.div_lt_of_lt_mul (by rwa [pow_succ'] at hfuel)
      exact ih hten hlt (by show d.exp + 1 ≤ ctx.emax; omega)
    · rename_i h
      exact Or.inr ⟨hc, he, by omega⟩

theorem fix_exp_le_emax {ctx : Context} {d d' : Decimal} (h : fix ctx d = some d') :
    d'.exp ≤ ctx.emax := by
  have htop := ctx.etop_le_emax
  have hmin : (numDigits d.coeff : ℤ) + d.exp - ctx.prec ≤ expMin ctx d := le_max_left _ _
  have hdigits := numDigits_pos d.coeff
  simp only [fix] at h
  split_ifs at h with hzero hover hround hcarry hcarryTop <;> cases h
  · exact min_le_right _ _
  · exact (not_lt.mp hcarryTop).trans htop
  · exact (not_lt.mp hover).trans htop
  · have : ctx.etop = ctx.emax - ctx.prec + 1 := rfl
    omega

theorem normalize_reduced {ctx : Context} {d d' : Decimal} (h : normalize ctx d = some d') :
    Reduced ctx d' := by
  obtain ⟨r, hr, rfl⟩ := Option.map_eq_some_iff.mp h
  split
  · rename_i hzero
    exact Or.inl ⟨hzero, rfl⟩
  · rename_i hzero
    exact strip_reduced hzero (lt_pow_numDigits r.coeff) (fix_exp_le_emax hr)

theorem normalize_neg {ctx : Context} {d d' : Decimal} (h : normalize ctx d = some d') :
    d'.neg = d.neg := by
  obtain ⟨r, hr, rfl⟩ := Option.map_eq_some_iff.mp h
  rw [← fix_neg hr]
  split
  · rfl
  · exact strip_neg ctx _ r

/-- Reduced decimals of one sign are determined by their value. -/
theorem Reduced.unique {ctx : Context} {a b : Decimal} (ha : Reduced ctx a) (hb : Reduced ctx b)
    (hneg : a.neg = b.neg) (hvalue : a.value = b.value) : a = b := by
  -- of two equal magnitudes the one at the lower exponent would end in a zero
  have key : ∀ x y : Decimal, Reduced ctx x → Reduced ctx y → x.value = y.value →
      x.exp ≤ y.exp → x.coeff = y.coeff ∧ x.exp = y.exp := by
    intro x y hx hy hxy hle
    have hmag : (x.coeff : ℚ) * (10 : ℚ) ^ x.exp = y.coeff * (10 : ℚ) ^ y.exp := by
      rw [← x.abs_value, ← y.abs_value, hxy]
    have hcoeff := coeff_of_le hle hmag
    rcases hx with ⟨hx0, hxe⟩ | ⟨hx0, hxe, hxlast⟩
    · have hy0 : y.coeff = 0 := by
        rw [hx0] at hcoeff
        simpa using hcoeff.symm
      rcases hy with ⟨-, hye⟩ | ⟨hy0', -⟩
      · exact ⟨hx0.trans hy0.symm, hxe.trans hye.symm⟩
      · exact absurd hy0 hy0'
    · have hye : y.exp ≤ ctx.emax := by
        rcases hy with ⟨hy0, -⟩ | ⟨-, hye, -⟩
        · rw [hy0, Nat.zero_mul] at hcoeff
          exact absurd hcoeff hx0
        · exact hye
      obtain hlt | heq := hle.lt_or_eq
      · have hten : x.coeff % 10 = 0 := by
          obtain ⟨k, hk⟩ : ∃ k, (y.exp - x.exp).toNat = k + 1 :=
            ⟨(y.exp - x.exp).toNat - 1, by omega⟩
          rw [hcoeff, hk, pow_succ, ← mul_assoc, Nat.mul_mod_left]
        rcases hxlast with h | h
        · exact absurd hten h
        · omega
      · refine ⟨?_, heq⟩
        rw [hcoeff, heq, sub_self]
        simp
  have hboth : a.coeff = b.coeff ∧ a.exp = b.exp := by
    rcases le_total a.exp b.exp with h | h
    · exact key a b ha hb hvalue h
    · obtain ⟨hc, he⟩ := key b a hb ha hvalue.symm h
      exact ⟨hc.symm, he.symm⟩
  obtain ⟨hcoeff, hexp⟩ := hboth
  cases a
  cases b
  cases hneg
  cases hcoeff
  cases hexp
  rfl

/-- A representable number has a normal form of the same value. -/
theorem normalize_exact {ctx : Context} {d : Decimal} (h : Representable ctx d.value) :
    ∃ n, normalize ctx d = some n ∧ n.value = d.value := by
  obtain ⟨r, hr, hrvalue⟩ := fix_exact h
  have hn : normalize ctx d = some (if r.coeff = 0 then { r with exp := 0 }
      else strip ctx (numDigits r.coeff) r) := by
    rw [normalize, hr]
    rfl
  obtain ⟨r', hr', hvalue⟩ := normalize_value hn
  rw [hr] at hr'
  exact ⟨_, hn, by rw [hvalue, ← Option.some.inj hr', hrvalue]⟩

/-- A plain positive decimal: digits without a superfluous leading zero, perhaps with a fraction
that does not end in one, and not zero altogether. -/
def PlainPositive (s : String) : Prop :=
  ∃ int frac : List Char, s.toList = int ++ (if frac = [] then [] else '.' :: frac) ∧
    int ≠ [] ∧ (∀ c ∈ int ++ frac, c.isDigit = true) ∧ (int.head? = some '0' → int = ['0']) ∧
    frac.getLast? ≠ some '0' ∧ ∃ c ∈ int ++ frac, c ≠ '0'

theorem natDigits_nonzero {n : ℕ} (h : n ≠ 0) : ∃ c ∈ natDigits n, c ≠ '0' := by
  obtain ⟨c, cs, hcs⟩ := List.exists_cons_of_ne_nil (natDigits_ne_nil n)
  refine ⟨c, by simp [hcs], ?_⟩
  have hhead := natDigits_head h
  rw [hcs] at hhead
  exact fun hc => hhead (congrArg some hc)

theorem natDigits_leading (n : ℕ) : (natDigits n).head? = some '0' → natDigits n = ['0'] := by
  intro hhead
  by_cases h : n = 0
  · rw [h, natDigits_zero]
  · exact absurd hhead (natDigits_head h)

/-- **Plain text.**  A positive number in normal form is printed without an exponent and without
superfluous zeros. -/
theorem formatF_plainPositive {ctx : Context} {d : Decimal} (h : Reduced ctx d)
    (hpos : d.Positive) : PlainPositive (formatF d) := by
  obtain ⟨hneg, hcoeff⟩ := hpos
  have htext : (formatF d).toList = fixedPoint d := by
    rw [formatF, hneg, String.toList_ofList]
    rfl
  by_cases hexp : 0 ≤ d.exp
  · -- the exponent is written out as zeros
    have hint : d.coeff * 10 ^ d.exp.toNat ≠ 0 := Nat.mul_ne_zero hcoeff (by positivity)
    refine ⟨natDigits (d.coeff * 10 ^ d.exp.toNat), [], ?_, natDigits_ne_nil _, ?_,
      natDigits_leading _, by simp, ?_⟩
    · rw [htext, fixedPoint, if_pos hexp, if_pos rfl, List.append_nil]
    · rw [List.append_nil]
      exact natDigits_isDigit _
    · rw [List.append_nil]
      exact natDigits_nonzero hint
  · -- the fraction ends in the last digit of the coefficient
    have hten : d.coeff % 10 ≠ 0 := by
      rcases h with ⟨hzero, -⟩ | ⟨-, -, hlast | hlast⟩
      · exact absurd hzero hcoeff
      · exact hlast
      · have := ctx.range
        omega
    obtain ⟨k, hk⟩ : ∃ k, (-d.exp).toNat = k + 1 := ⟨(-d.exp).toNat - 1, by omega⟩
    have hlastDigit : d.coeff % 10 ^ (k + 1) % 10 = d.coeff % 10 :=
      Nat.mod_mod_of_dvd _ (dvd_pow_self 10 (Nat.succ_ne_zero k))
    have hlast : (pad (k + 1) (d.coeff % 10 ^ (k + 1))).getLast? =
        some (digitChar (d.coeff % 10)) := by
      rw [pad_getLast _ (Nat.succ_pos k), hlastDigit]
    have hne : digitChar (d.coeff % 10) ≠ '0' :=
      digitChar_ne_zero (Nat.pos_of_ne_zero hten) (Nat.mod_lt _ (by norm_num))
    have hfrac : pad (k + 1) (d.coeff % 10 ^ (k + 1)) ≠ [] := by
      intro hnil
      rw [hnil] at hlast
      cases hlast
    refine ⟨natDigits (d.coeff / 10 ^ (k + 1)), pad (k + 1) (d.coeff % 10 ^ (k + 1)), ?_,
      natDigits_ne_nil _, ?_, natDigits_leading _, ?_, ?_⟩
    · rw [htext, fixedPoint, if_neg hexp, hk, if_neg hfrac]
    · intro c hc
      rcases List.mem_append.mp hc with hc | hc
      · exact natDigits_isDigit _ c hc
      · exact pad_isDigit _ _ c hc
    · rw [hlast]
      exact fun hzero => hne (Option.some.inj hzero)
    · refine ⟨digitChar (d.coeff % 10), ?_, hne⟩
      exact List.mem_append.mpr (Or.inr (List.mem_of_getLast? hlast))

/-- Without a positive exponent, a decimal is what its text is read back as. -/
theorem formatF_inj {a b : Decimal} (ha : a.exp ≤ 0) (hb : b.exp ≤ 0) :
    formatF a = formatF b ↔ a = b := by
  have hself : ∀ d : Decimal, d.exp ≤ 0 → parse (formatF d) = some d := by
    intro d hd
    rw [parse_formatF, Decimal.plain]
    split
    · have hzero : d.exp = 0 := by omega
      obtain ⟨neg, coeff, exp⟩ := d
      cases hzero
      simp
    · rfl
  constructor
  · intro h
    exact Option.some.inj ((hself a ha).symm.trans (h ▸ hself b hb))
  · rintro rfl
    rfl

/-- Normalise and print: the canonical text of a number. -/
def canonical (ctx : Context) (d : Decimal) : Option String :=
  (normalize ctx d).map formatF

/-- What a canonical text denotes is representable. -/
theorem canonical_parse {ctx : Context} {d : Decimal} {s : String} (h : canonical ctx d = some s) :
    ∃ p, parse s = some p ∧ Representable ctx p.value ∧ p.neg = d.neg := by
  obtain ⟨n, hn, rfl⟩ := Option.map_eq_some_iff.mp h
  refine ⟨n.plain, parse_formatF n, ?_, ?_⟩
  · rw [Decimal.plain_value]
    exact normalize_representable hn
  · rw [Decimal.plain_neg, normalize_neg hn]

/-- A canonical text is read back without a positive exponent, and with few enough digits if it has
a fraction. -/
theorem canonical_parse_range {ctx : Context} {d p : Decimal} {s : String}
    (h : canonical ctx d = some s) (hp : parse s = some p) :
    p.exp ≤ 0 ∧ (p.exp < 0 → p.coeff < 10 ^ ctx.prec ∧ ctx.etiny ≤ p.exp) := by
  obtain ⟨n, hn, rfl⟩ := Option.map_eq_some_iff.mp h
  cases (parse_formatF n).symm.trans hp
  unfold Decimal.plain
  split
  · exact ⟨le_rfl, fun hlt => absurd hlt (lt_irrefl _)⟩
  · rename_i hneg
    refine ⟨by omega, fun _ => ?_⟩
    obtain ⟨c, e, hvalue, hc, hlow, -⟩ := normalize_representable hn
    rw [Decimal.abs_value] at hvalue
    -- a fraction in normal form does not end in a zero, so it stands at the lowest exponent
    have hlast : n.coeff % 10 ≠ 0 := by
      rcases normalize_reduced hn with ⟨-, hexp⟩ | ⟨-, -, hlast | hexp⟩
      · omega
      · exact hlast
      · have := ctx.range
        omega
    have hle : e ≤ n.exp := by
      by_contra hlt
      have hcoeff := coeff_of_le (not_le.mp hlt).le hvalue
      obtain ⟨k, hk⟩ : ∃ k, (e - n.exp).toNat = k + 1 := ⟨(e - n.exp).toNat - 1, by omega⟩
      rw [hk, pow_succ, ← mul_assoc] at hcoeff
      exact hlast (by rw [hcoeff, Nat.mul_mod_left])
    have hcoeff := coeff_of_le hle hvalue.symm
    have hgrow : n.coeff ≤ n.coeff * 10 ^ (n.exp - e).toNat :=
      Nat.le_mul_of_pos_right _ (by positivity)
    exact ⟨by omega, hlow.trans hle⟩

/-- **Exactness.**  A number has a text that denotes it precisely when it is representable. -/
theorem canonical_exact_iff {ctx : Context} {d : Decimal} :
    (∃ s p, canonical ctx d = some s ∧ parse s = some p ∧ p.value = d.value) ↔
      Representable ctx d.value := by
  constructor
  · rintro ⟨s, p, hs, hp, hvalue⟩
    obtain ⟨p', hp', hrep, -⟩ := canonical_parse hs
    rw [hp] at hp'
    cases hp'
    rwa [← hvalue]
  · intro h
    obtain ⟨n, hn, hvalue⟩ := normalize_exact h
    refine ⟨formatF n, n.plain, by rw [canonical, hn]; rfl, parse_formatF n, ?_⟩
    rw [Decimal.plain_value, hvalue]

/-- **Canonicity.**  Representable numbers of one sign have the same text precisely when they are
equal. -/
theorem canonical_inj {ctx : Context} {a b : Decimal} (ha : Representable ctx a.value)
    (hb : Representable ctx b.value) (hneg : a.neg = b.neg) :
    canonical ctx a = canonical ctx b ↔ a.value = b.value := by
  obtain ⟨n, hn, hnvalue⟩ := normalize_exact ha
  obtain ⟨m, hm, hmvalue⟩ := normalize_exact hb
  constructor
  · intro h
    have htext : formatF n = formatF m := by
      simpa [canonical, hn, hm] using h
    have hplain := parse_formatF n
    rw [htext, parse_formatF m] at hplain
    rw [← hnvalue, ← hmvalue, ← n.plain_value, ← m.plain_value, Option.some.inj hplain]
  · intro h
    have hnm : n = m := (normalize_reduced hn).unique (normalize_reduced hm)
      (by rw [normalize_neg hn, normalize_neg hm, hneg]) (by rw [hnvalue, hmvalue, h])
    rw [canonical, canonical, hn, hm, hnm]

/-- The text of a positive representable number is plain. -/
theorem canonical_plainPositive {ctx : Context} {d : Decimal} {s : String} (hpos : d.Positive)
    (hrep : Representable ctx d.value) (h : canonical ctx d = some s) : PlainPositive s := by
  obtain ⟨n, hn, hvalue⟩ := normalize_exact hrep
  have hs : s = formatF n := by
    rw [canonical, hn] at h
    exact (Option.some.inj h).symm
  rw [hs]
  apply formatF_plainPositive (normalize_reduced hn)
  rw [Decimal.positive_iff, hvalue]
  exact Decimal.positive_iff.mp hpos

/-- **Idempotence.**  Reading a canonical text and printing it again gives the same text. -/
theorem canonical_idempotent {ctx : Context} {d : Decimal} {s : String}
    (h : canonical ctx d = some s) : ∃ p, parse s = some p ∧ canonical ctx p = some s := by
  obtain ⟨n, hn, rfl⟩ := Option.map_eq_some_iff.mp h
  refine ⟨n.plain, parse_formatF n, ?_⟩
  have hrep : Representable ctx n.plain.value := by
    rw [Decimal.plain_value]
    exact normalize_representable hn
  obtain ⟨m, hm, hmvalue⟩ := normalize_exact hrep
  have hmn : m = n := (normalize_reduced hm).unique (normalize_reduced hn)
    (by rw [normalize_neg hm, Decimal.plain_neg]) (by rw [hmvalue, Decimal.plain_value])
  rw [canonical, hm, hmn]
  rfl

end DecimalFloat
