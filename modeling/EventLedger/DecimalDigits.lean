import Mathlib.Data.Nat.Log
import Mathlib.Data.List.Induction
import Mathlib.Tactic.IntervalCases
import Mathlib.Tactic.Ring

/-!
# Decimal digit strings

`pad w n` writes the last `w` decimal digits of `n`, most significant first, and
`readDigits` reads a digit string back.  Both decimal amounts and ISO timestamps
are printed through `pad`, so their round trips rest on `readDigits_pad`.

Digit strings of one length are ordered as the numbers they denote (`pad_lt_iff`).
It is why timestamps can be compared as text at all.
-/
namespace DecimalDigits

/-- The character of a digit below ten. -/
def digitChar (d : ℕ) : Char := Char.ofNat (48 + d)

/-- The digit a character stands for. -/
def digitVal (c : Char) : ℕ := c.toNat - 48

/-- The number a digit string denotes. -/
def readDigits (cs : List Char) : ℕ := cs.foldl (fun n c => 10 * n + digitVal c) 0

/-- The last `w` digits of `n`, with leading zeros. -/
def pad : ℕ → ℕ → List Char
  | 0, _ => []
  | w + 1, n => pad w (n / 10) ++ [digitChar (n % 10)]

/-- How many digits `n` is written with; zero takes one. -/
def numDigits (n : ℕ) : ℕ := Nat.log 10 n + 1

/-- `n` without leading zeros. -/
def natDigits (n : ℕ) : List Char := pad (numDigits n) n

theorem digitChar_isDigit {d : ℕ} (h : d < 10) : (digitChar d).isDigit = true := by
  interval_cases d <;> decide

theorem digitVal_digitChar {d : ℕ} (h : d < 10) : digitVal (digitChar d) = d := by
  interval_cases d <;> decide

/-! ## Counting digits -/

theorem numDigits_pos (n : ℕ) : 0 < numDigits n := Nat.succ_pos _

theorem lt_pow_numDigits (n : ℕ) : n < 10 ^ numDigits n :=
  Nat.lt_pow_succ_log_self (by norm_num) n

theorem pow_numDigits_le {n : ℕ} (h : n ≠ 0) : 10 ^ (numDigits n - 1) ≤ n :=
  Nat.pow_log_le_self 10 h

/-- A number that fits in `k > 0` digits is written with at most `k` of them. -/
theorem numDigits_le {n k : ℕ} (hk : 0 < k) (h : n < 10 ^ k) : numDigits n ≤ k := by
  rcases Nat.eq_zero_or_pos n with rfl | hn
  · exact Nat.succ_le_of_lt hk
  · exact Nat.log_lt_of_lt_pow hn.ne' h

/-! ## Printing and reading -/

@[simp] theorem pad_length (w n : ℕ) : (pad w n).length = w := by
  induction w generalizing n with
  | zero => rfl
  | succ w ih => simp [pad, ih]

theorem pad_isDigit (w n : ℕ) : ∀ c ∈ pad w n, c.isDigit = true := by
  induction w generalizing n with
  | zero => intro c hc; simp [pad] at hc
  | succ w ih =>
    intro c hc
    rcases List.mem_append.mp hc with hc | hc
    · exact ih (n / 10) c hc
    · rw [List.mem_singleton.mp hc]
      exact digitChar_isDigit (Nat.mod_lt n (by norm_num))

theorem readDigits_snoc (cs : List Char) (c : Char) :
    readDigits (cs ++ [c]) = 10 * readDigits cs + digitVal c := by
  simp [readDigits, List.foldl_append]

theorem readDigits_append (a b : List Char) :
    readDigits (a ++ b) = readDigits a * 10 ^ b.length + readDigits b := by
  induction b using List.reverseRecOn with
  | nil => simp [readDigits]
  | append_singleton b c ih =>
    rw [← List.append_assoc, readDigits_snoc, readDigits_snoc, ih, List.length_append,
      List.length_singleton, pow_succ]
    ring

/-- **Round trip.**  Reading `w` printed digits gives the number modulo `10 ^ w`. -/
theorem readDigits_pad (w n : ℕ) : readDigits (pad w n) = n % 10 ^ w := by
  induction w generalizing n with
  | zero => simp [pad, readDigits, Nat.mod_one]
  | succ w ih =>
    rw [pad, readDigits_snoc, ih, digitVal_digitChar (Nat.mod_lt n (by norm_num)), pow_succ',
      Nat.mod_mul]
    omega

theorem readDigits_pad_of_lt {w n : ℕ} (h : n < 10 ^ w) : readDigits (pad w n) = n := by
  rw [readDigits_pad, Nat.mod_eq_of_lt h]

theorem natDigits_ne_nil (n : ℕ) : natDigits n ≠ [] := by
  intro h
  have hlen := congrArg List.length h
  simp [natDigits, numDigits] at hlen

theorem natDigits_isDigit (n : ℕ) : ∀ c ∈ natDigits n, c.isDigit = true := pad_isDigit _ n

@[simp] theorem readDigits_natDigits (n : ℕ) : readDigits (natDigits n) = n :=
  readDigits_pad_of_lt (lt_pow_numDigits n)

/-! ## Leading and trailing zeros -/

theorem digitChar_ne_zero {d : ℕ} (hpos : 0 < d) (h : d < 10) : digitChar d ≠ '0' := by
  interval_cases d <;> decide

/-- The first of `w + 1` printed digits. -/
theorem pad_succ (w n : ℕ) : pad (w + 1) n = digitChar (n / 10 ^ w % 10) :: pad w n := by
  induction w generalizing n with
  | zero => simp [pad]
  | succ w ih =>
    rw [pad, ih, pad, List.cons_append, Nat.div_div_eq_div_mul, pow_succ']

/-- A positive number is written without a leading zero. -/
theorem natDigits_head {n : ℕ} (h : n ≠ 0) : (natDigits n).head? ≠ some '0' := by
  have hlow := pow_numDigits_le h
  have hhigh := lt_pow_numDigits n
  have hsucc : numDigits n = (numDigits n - 1) + 1 := by
    have := numDigits_pos n
    omega
  rw [natDigits, hsucc, pad_succ, List.head?_cons]
  intro hzero
  rw [hsucc, pow_succ] at hhigh
  have htop : n / 10 ^ (numDigits n - 1) < 10 := Nat.div_lt_of_lt_mul hhigh
  have hpos : 0 < n / 10 ^ (numDigits n - 1) := Nat.div_pos hlow (by positivity)
  rw [Nat.mod_eq_of_lt htop] at hzero
  exact digitChar_ne_zero hpos htop (Option.some.inj hzero)

theorem natDigits_zero : natDigits 0 = ['0'] := by decide

/-- The last digit of a positive width is the number's own. -/
theorem pad_getLast {w : ℕ} (n : ℕ) (hw : 0 < w) :
    (pad w n).getLast? = some (digitChar (n % 10)) := by
  cases w with
  | zero => exact absurd hw (lt_irrefl 0)
  | succ w => rw [pad, List.getLast?_concat]

/-! ## Order -/

/-- The last digit decides only between equal leading parts. -/
theorem lt_iff_of_digit {a a' b b' n : ℕ} (hb : b < n) (hb' : b' < n) :
    a * n + b < a' * n + b' ↔ a < a' ∨ (a = a' ∧ b < b') := by
  constructor
  · intro h
    rcases lt_trichotomy a a' with hlt | rfl | hgt
    · exact Or.inl hlt
    · exact Or.inr ⟨rfl, by omega⟩
    · have hmul : (a' + 1) * n ≤ a * n := Nat.mul_le_mul_right n hgt
      rw [Nat.succ_mul] at hmul
      omega
  · rintro (hlt | ⟨rfl, hlt⟩)
    · have hmul : (a + 1) * n ≤ a' * n := Nat.mul_le_mul_right n hlt
      rw [Nat.succ_mul] at hmul
      omega
    · omega

/-- The same, with something further to decide between equal numbers. -/
theorem lt_or_eq_of_digit {a a' b b' n : ℕ} {X : Prop} (hb : b < n) (hb' : b' < n) :
    (a * n + b < a' * n + b' ∨ (a * n + b = a' * n + b' ∧ X)) ↔
      a < a' ∨ (a = a' ∧ (b < b' ∨ (b = b' ∧ X))) := by
  have hlt : a * n + b < a' * n + b' ↔ a < a' ∨ (a = a' ∧ b < b') := lt_iff_of_digit hb hb'
  have hgt : a' * n + b' < a * n + b ↔ a' < a ∨ (a' = a ∧ b' < b) := lt_iff_of_digit hb' hb
  have heq : a * n + b = a' * n + b' ↔ a = a' ∧ b = b' := by
    constructor
    · intro h
      omega
    · rintro ⟨rfl, rfl⟩
      rfl
  rw [hlt, heq, or_assoc, and_assoc, and_or_left]

/-- Texts of one length in front decide before what follows them. -/
theorem append_lt_append_iff {x x' y y' : List Char} (h : x.length = x'.length) :
    x ++ y < x' ++ y' ↔ x < x' ∨ (x = x' ∧ y < y') := by
  induction x generalizing x' with
  | nil =>
    have hx' : x' = [] := List.length_eq_zero_iff.mp h.symm
    simp [hx']
  | cons c x ih =>
    cases x' with
    | nil => cases h
    | cons c' x' =>
      rw [List.cons_append, List.cons_append, List.cons_lt_cons_iff, List.cons_lt_cons_iff,
        ih (Nat.succ.inj h), List.cons.injEq, or_assoc, and_assoc, and_or_left]

theorem digitChar_lt_iff {d e : ℕ} (hd : d < 10) (he : e < 10) :
    digitChar d < digitChar e ↔ d < e := by
  interval_cases d <;> interval_cases e <;> decide

theorem digitChar_inj {d e : ℕ} (hd : d < 10) (he : e < 10) :
    digitChar d = digitChar e ↔ d = e := by
  constructor
  · intro h
    rw [← digitVal_digitChar hd, h, digitVal_digitChar he]
  · exact congrArg digitChar

/-- Printed digits order as the numbers they stand for. -/
theorem pad_lt_iff (w m n : ℕ) : pad w m < pad w n ↔ m % 10 ^ w < n % 10 ^ w := by
  induction w with
  | zero => simp [pad, Nat.mod_one]
  | succ w ih =>
    have hm : m / 10 ^ w % 10 < 10 := Nat.mod_lt _ (by norm_num)
    have hn : n / 10 ^ w % 10 < 10 := Nat.mod_lt _ (by norm_num)
    rw [pad_succ, pad_succ, List.cons_lt_cons_iff, digitChar_lt_iff hm hn, digitChar_inj hm hn, ih,
      Nat.mod_pow_succ, Nat.mod_pow_succ, Nat.add_comm _ (10 ^ w * _),
      Nat.add_comm _ (10 ^ w * _), Nat.mul_comm, Nat.mul_comm (10 ^ w),
      lt_iff_of_digit (Nat.mod_lt _ (by positivity)) (Nat.mod_lt _ (by positivity))]

theorem pad_inj {w m n : ℕ} (hm : m < 10 ^ w) (hn : n < 10 ^ w) : pad w m = pad w n ↔ m = n := by
  constructor
  · intro h
    rw [← readDigits_pad_of_lt hm, h, readDigits_pad_of_lt hn]
  · exact congrArg (pad w)

/-- A fixed-width number in front decides before what follows it. -/
theorem pad_append_lt_iff {w m n : ℕ} {x y : List Char} (hm : m < 10 ^ w) (hn : n < 10 ^ w) :
    pad w m ++ x < pad w n ++ y ↔ m < n ∨ (m = n ∧ x < y) := by
  rw [append_lt_append_iff (by rw [pad_length, pad_length]), pad_lt_iff, pad_inj hm hn,
    Nat.mod_eq_of_lt hm, Nat.mod_eq_of_lt hn]

/-! ## Splitting off a leading number -/

/-- The longest leading digit string, and what follows it. -/
def leadingDigits (cs : List Char) : List Char × List Char :=
  (cs.takeWhile (·.isDigit), cs.dropWhile (·.isDigit))

/-- A digit string followed by something that does not start with a digit is split off whole. -/
theorem leadingDigits_append {ds rest : List Char} (hd : ∀ c ∈ ds, c.isDigit = true)
    (hrest : ∀ c ∈ rest.head?, c.isDigit = false) : leadingDigits (ds ++ rest) = (ds, rest) := by
  have htake : rest.takeWhile (·.isDigit) = [] := by
    cases rest with
    | nil => rfl
    | cons c cs => simp [hrest c rfl]
  have hdrop : rest.dropWhile (·.isDigit) = rest := by
    cases rest with
    | nil => rfl
    | cons c cs => simp [hrest c rfl]
  rw [leadingDigits, List.takeWhile_append_of_pos hd, List.dropWhile_append_of_pos hd, htake, hdrop,
    List.append_nil]

theorem leadingDigits_self {ds : List Char} (hd : ∀ c ∈ ds, c.isDigit = true) :
    leadingDigits ds = (ds, []) := by
  have h := leadingDigits_append hd (by simp : ∀ c ∈ ([] : List Char).head?, c.isDigit = false)
  rwa [List.append_nil] at h

end DecimalDigits
