import EventLedger.Balance

/-!
# Chronological listings

Listings are sorted by the text of a timestamp.  That text orders by the local
clock time it shows, and between equal clock times by the text of the offset
(`isoformat_lt_iff`), while the instant it denotes is the clock time less the
offset.  So an account's listings are chronological exactly when its timestamps
order by the clock as they do in time (`ClockOrdered`), as they do when they all
have one offset.
-/
namespace EventLedger

open DecimalDigits DecimalFloat KeyedTable

/-! ## The calendar -/

/-- Days before 1 January of a year, from year 1. -/
def daysBeforeYear (year : ℕ) : ℕ :=
  (year - 1) * 365 + (year - 1) / 4 - (year - 1) / 100 + (year - 1) / 400

/-- Days of a year before the first of a month. -/
def daysBeforeMonth (year : ℕ) : ℕ → ℕ
  | 0 => 0
  | 1 => 0
  | month + 2 => daysBeforeMonth year (month + 1) + daysInMonth year (month + 1)

/-- The proleptic Gregorian ordinal of a date, from 1 January of year 1. -/
def ordinal (year month day : ℕ) : ℕ := daysBeforeYear year + daysBeforeMonth year month + day

theorem daysBeforeMonth_succ {year month : ℕ} (h : 1 ≤ month) :
    daysBeforeMonth year (month + 1) = daysBeforeMonth year month + daysInMonth year month := by
  obtain ⟨k, rfl⟩ : ∃ k, month = k + 1 := ⟨month - 1, by omega⟩
  rfl

/-- A month ends before every later one begins. -/
theorem daysBeforeMonth_lt {year month month' : ℕ} (h : 1 ≤ month) (hlt : month < month') :
    daysBeforeMonth year month + daysInMonth year month ≤ daysBeforeMonth year month' := by
  induction month', hlt using Nat.le_induction with
  | base => exact (daysBeforeMonth_succ h).ge
  | succ k hk ih =>
    have hsucc : daysBeforeMonth year (k + 1) = daysBeforeMonth year k + daysInMonth year k :=
      daysBeforeMonth_succ (by omega)
    omega

/-- The days of a year are the days before the next. -/
theorem daysBeforeYear_succ {year : ℕ} (h : 1 ≤ year) :
    daysBeforeYear (year + 1) = daysBeforeYear year + daysBeforeMonth year 13 := by
  have hfeb : daysBeforeMonth year 13 = 337 + daysInMonth year 2 := by
    simp [daysBeforeMonth, daysInMonth]
    omega
  obtain ⟨y, rfl⟩ : ∃ y, year = y + 1 := ⟨year - 1, by omega⟩
  have hle : y / 100 ≤ y / 4 := Nat.div_le_div_left (by norm_num) (by norm_num)
  rw [hfeb, daysInMonth, if_pos rfl, daysBeforeYear, daysBeforeYear, Nat.add_sub_cancel,
    Nat.add_sub_cancel, Nat.succ_div, Nat.succ_div, Nat.succ_div]
  simp only [Nat.dvd_iff_mod_eq_zero]
  -- a year divisible by 400 is divisible by 100, and that by 4
  by_cases h4 : (y + 1) % 4 = 0
  · by_cases h100 : (y + 1) % 100 = 0
    · by_cases h400 : (y + 1) % 400 = 0
      · simp only [h4, h100, h400, if_true, ne_eq, not_true_eq_false, false_or, and_self]
        omega
      · simp only [h4, h100, h400, if_true, if_false, ne_eq, not_true_eq_false, or_self,
          and_false]
        omega
    · have h400 : (y + 1) % 400 ≠ 0 := by omega
      simp only [h4, h100, h400, if_true, if_false, ne_eq, not_false_eq_true, true_or, and_self]
      omega
  · have h100 : (y + 1) % 100 ≠ 0 := by omega
    have h400 : (y + 1) % 400 ≠ 0 := by omega
    simp only [h4, h100, h400, if_false, false_and]
    omega

theorem daysBeforeYear_mono {year year' : ℕ} (h : 1 ≤ year) (hlt : year < year') :
    daysBeforeYear year + daysBeforeMonth year 13 ≤ daysBeforeYear year' := by
  induction year', hlt using Nat.le_induction with
  | base => exact (daysBeforeYear_succ h).ge
  | succ k hk ih =>
    have hsucc := daysBeforeYear_succ (show 1 ≤ k by omega)
    omega

/-! ## Clock time and instant -/

namespace DateTime

variable (t u : DateTime)

/-- The day of a timestamp's calendar date. -/
def dayNumber : ℕ := ordinal t.year t.month t.day

/-- The local time a timestamp shows, in microseconds. -/
def wallClock : ℕ :=
  t.dayNumber * 86400000000 + (t.hour * 3600000000 + (t.minute * 60000000 +
    (t.second * 1000000 + t.microsecond)))

/-- The minutes its offset is ahead of UTC. -/
def offset : ℤ := t.utcoffset.getD 0

/-- The instant a timestamp denotes, in microseconds. -/
def instant : ℤ := t.wallClock - t.offset * 60 * 1000000

/-- Dates order by year, then month, then day. -/
theorem dayNumber_lt_iff : t.dayNumber < u.dayNumber ↔
    t.year < u.year ∨ (t.year = u.year ∧ (t.month < u.month ∨
      (t.month = u.month ∧ t.day < u.day))) := by
  -- a date lies after the start of its year and before its end
  have hmonth : ∀ v : DateTime, daysBeforeMonth v.year v.month + v.day ≤
      daysBeforeMonth v.year 13 := by
    intro v
    have hday := v.day_range.2
    have hrange := v.month_range
    have hlt : daysBeforeMonth v.year v.month + daysInMonth v.year v.month ≤
        daysBeforeMonth v.year 13 := daysBeforeMonth_lt hrange.1 (by omega)
    omega
  have key : ∀ v w : DateTime, v.year < w.year → v.dayNumber < w.dayNumber := by
    intro v w hlt
    have hyear := daysBeforeYear_mono v.year_range.1 hlt
    have hv := hmonth v
    have hw := w.day_range.1
    unfold dayNumber ordinal
    omega
  have key' : ∀ v w : DateTime, v.year = w.year → v.month < w.month →
      v.dayNumber < w.dayNumber := by
    intro v w hyear hlt
    have hmonths : daysBeforeMonth v.year v.month + daysInMonth v.year v.month ≤
        daysBeforeMonth v.year w.month := daysBeforeMonth_lt v.month_range.1 hlt
    have hv := v.day_range.2
    have hw := w.day_range.1
    unfold dayNumber ordinal
    rw [← hyear]
    omega
  rcases lt_trichotomy t.year u.year with hy | hy | hy
  · have := key t u hy
    omega
  · rcases lt_trichotomy t.month u.month with hm | hm | hm
    · have := key' t u hy hm
      omega
    · have hday : t.dayNumber < u.dayNumber ↔ t.day < u.day := by
        unfold dayNumber ordinal
        rw [hy, hm]
        omega
      rw [hday]
      omega
    · have := key' u t hy.symm hm
      omega
  · have := key u t hy
    omega

theorem dayNumber_lt_or_eq {X : Prop} :
    (t.dayNumber < u.dayNumber ∨ (t.dayNumber = u.dayNumber ∧ X)) ↔
      t.year < u.year ∨ (t.year = u.year ∧ (t.month < u.month ∨
        (t.month = u.month ∧ (t.day < u.day ∨ (t.day = u.day ∧ X))))) := by
  have hlt := t.dayNumber_lt_iff u
  have hgt := u.dayNumber_lt_iff t
  have heq : t.dayNumber = u.dayNumber ↔
      t.year = u.year ∧ t.month = u.month ∧ t.day = u.day := by
    constructor
    · intro h
      omega
    · rintro ⟨hy, hm, hd⟩
      rw [dayNumber, dayNumber, hy, hm, hd]
  rw [hlt, heq]
  simp only [and_or_left, or_assoc, and_assoc]

/-- Clock times order by their fields, from the year down. -/
theorem wallClock_lt_or_eq {X : Prop} :
    (t.wallClock < u.wallClock ∨ (t.wallClock = u.wallClock ∧ X)) ↔
      t.year < u.year ∨ (t.year = u.year ∧ (t.month < u.month ∨ (t.month = u.month ∧
        (t.day < u.day ∨ (t.day = u.day ∧ (t.hour < u.hour ∨ (t.hour = u.hour ∧
          (t.minute < u.minute ∨ (t.minute = u.minute ∧ (t.second < u.second ∨
            (t.second = u.second ∧ (t.microsecond < u.microsecond ∨
              (t.microsecond = u.microsecond ∧ X))))))))))))) := by
  have ht := t.time_range
  have hu := u.time_range
  rw [← dayNumber_lt_or_eq, wallClock, wallClock, lt_or_eq_of_digit (by omega) (by omega),
    lt_or_eq_of_digit (by omega) (by omega), lt_or_eq_of_digit (by omega) (by omega),
    lt_or_eq_of_digit (by omega) (by omega)]

end DateTime

/-! ## Timestamps as text -/

/-- Offsets order as text by their sign first, and then by how far they are from UTC. -/
theorem formatOffset_lt_iff {m n : ℤ} (hm : m.natAbs < 1440) (hn : n.natAbs < 1440) :
    formatOffset (some m) < formatOffset (some n) ↔
      (0 ≤ m ∧ 0 ≤ n ∧ m < n) ∨ (0 ≤ m ∧ n < 0) ∨ (m < 0 ∧ n < 0 ∧ n < m) := by
  have hdigits : pad 2 (m.natAbs / 60) ++ ':' :: pad 2 (m.natAbs % 60) <
      pad 2 (n.natAbs / 60) ++ ':' :: pad 2 (n.natAbs % 60) ↔ m.natAbs < n.natAbs := by
    rw [pad_append_lt_iff (by omega) (by omega), List.cons_lt_cons_self, pad_lt_iff]
    omega
  simp only [formatOffset, List.cons_append, List.cons_lt_cons_iff, hdigits]
  have hplus : '+' < '-' := by decide
  by_cases hneg : m < 0
  · by_cases hneg' : n < 0
    · rw [if_pos hneg, if_pos hneg']
      simp only [lt_irrefl, true_and, false_or]
      omega
    · rw [if_pos hneg, if_neg hneg']
      simp only [hplus.not_gt, hplus.ne', false_and, or_false, false_iff]
      omega
  · by_cases hneg' : n < 0
    · rw [if_neg hneg, if_pos hneg']
      simp only [hplus, true_or, true_iff]
      omega
    · rw [if_neg hneg, if_neg hneg']
      simp only [lt_irrefl, true_and, false_or]
      omega

/-- A time of day without a fraction comes before every fraction of its second. -/
theorem formatFraction_lt_iff {a b : ℕ} {m n : ℤ} (ha : a < 1000000) (hb : b < 1000000) :
    formatFraction a ++ formatOffset (some m) < formatFraction b ++ formatOffset (some n) ↔
      a < b ∨ (a = b ∧ formatOffset (some m) < formatOffset (some n)) := by
  have hsign : ∀ k : ℤ, (if k < 0 then '-' else '+') < '.' := by
    intro k
    split_ifs <;> decide
  by_cases ha0 : a = 0
  · by_cases hb0 : b = 0
    · simp [formatFraction, ha0, hb0]
    · have hlt : formatOffset (some m) < formatFraction b ++ formatOffset (some n) := by
        rw [formatFraction, if_neg hb0, formatOffset, List.cons_append, List.cons_append]
        exact List.cons_lt_cons_iff.mpr (Or.inl (hsign m))
      have hpos : 0 < b := Nat.pos_of_ne_zero hb0
      simp [formatFraction, ha0, hb0] at hlt ⊢
      simp [hlt, hpos]
  · by_cases hb0 : b = 0
    · have hgt : formatOffset (some n) < formatFraction a ++ formatOffset (some m) := by
        rw [formatFraction, if_neg ha0, formatOffset, List.cons_append, List.cons_append]
        exact List.cons_lt_cons_iff.mpr (Or.inl (hsign n))
      have hnot := not_lt_of_gt hgt
      subst hb0
      rw [formatFraction.eq_def 0, if_pos rfl, List.nil_append]
      simp [hnot, ha0]
    · rw [formatFraction, formatFraction, if_neg ha0, if_neg hb0, List.cons_append,
        List.cons_append, List.cons_lt_cons_self, pad_append_lt_iff (by omega) (by omega)]

/-- **Order of texts.**  Timestamps with offsets order as text by the clock time they show, and
between equal clock times by the text of their offsets. -/
theorem isoformat_lt_iff {t u : DateTime} {m n : ℤ} (ht : t.utcoffset = some m)
    (hu : u.utcoffset = some n) :
    t.isoformat < u.isoformat ↔ t.wallClock < u.wallClock ∨
      (t.wallClock = u.wallClock ∧ formatOffset (some m) < formatOffset (some n)) := by
  have hday : ∀ v : DateTime, v.day < 10 ^ 2 := by
    intro v
    have hmonth : daysInMonth v.year v.month ≤ 31 := by
      unfold daysInMonth
      split_ifs <;> omega
    have := v.day_range
    omega
  have hfields : ∀ v : DateTime, v.year < 10 ^ 4 ∧ v.month < 10 ^ 2 ∧ v.hour < 10 ^ 2 ∧
      v.minute < 10 ^ 2 ∧ v.second < 10 ^ 2 := by
    intro v
    have := v.year_range
    have := v.month_range
    have := v.time_range
    omega
  obtain ⟨hty, htm, hth, htmin, hts⟩ := hfields t
  obtain ⟨huy, hum, huh, humin, hus⟩ := hfields u
  rw [String.lt_iff_toList_lt, DateTime.isoformat, DateTime.isoformat, String.toList_ofList,
    String.toList_ofList, DateTime.wallClock_lt_or_eq, ht, hu]
  simp only [formatDate, formatTime, List.append_assoc, List.cons_append]
  rw [pad_append_lt_iff hty huy, List.cons_lt_cons_self, pad_append_lt_iff htm hum,
    List.cons_lt_cons_self, pad_append_lt_iff (hday t) (hday u), List.cons_lt_cons_self,
    pad_append_lt_iff hth huh, List.cons_lt_cons_self, pad_append_lt_iff htmin humin,
    List.cons_lt_cons_self, pad_append_lt_iff hts hus,
    formatFraction_lt_iff t.time_range.2.2.2 u.time_range.2.2.2]

/-! ## Clock order and time order -/

/-- The clock orders two timestamps as time does: an earlier clock time is no later instant, and
equal clock times have one offset, or one of them an offset behind UTC. -/
def ClockOrdered (t u : DateTime) : Prop :=
  (t.wallClock < u.wallClock → t.instant ≤ u.instant) ∧
    (t.wallClock = u.wallClock → t.offset = u.offset ∨ t.offset < 0 ∨ u.offset < 0)

/-- **Two timestamps.**  Their texts order as their instants, whichever comes first, exactly if the
clock orders them as time does. -/
theorem isoformat_chronological_iff {t u : DateTime} (ht : t.utcoffset.isSome)
    (hu : u.utcoffset.isSome) :
    ((t.isoformat < u.isoformat → t.instant ≤ u.instant) ∧
      (u.isoformat < t.isoformat → u.instant ≤ t.instant)) ↔
      ClockOrdered t u ∧ ClockOrdered u t := by
  obtain ⟨m, hm⟩ := Option.isSome_iff_exists.mp ht
  obtain ⟨n, hn⟩ := Option.isSome_iff_exists.mp hu
  have hmrange : m.natAbs < 1440 := t.offset_range m hm
  have hnrange : n.natAbs < 1440 := u.offset_range n hn
  have htoffset : t.offset = m := by rw [DateTime.offset, hm, Option.getD_some]
  have huoffset : u.offset = n := by rw [DateTime.offset, hn, Option.getD_some]
  rw [isoformat_lt_iff hm hn, isoformat_lt_iff hn hm, formatOffset_lt_iff hmrange hnrange,
    formatOffset_lt_iff hnrange hmrange]
  simp only [ClockOrdered, DateTime.instant, htoffset, huoffset]
  omega

theorem ClockOrdered.of_offset_eq {t u : DateTime} (h : t.offset = u.offset) :
    ClockOrdered t u := by
  constructor
  · intro hlt
    rw [DateTime.instant, DateTime.instant, h]
    omega
  · exact fun _ => Or.inl h

/-! ## Sorted listings -/

/-- The instant a timestamp column denotes. -/
def instantOf (text : String) : ℤ := ((fromIsoformat text).map DateTime.instant).getD 0

/-- The column holds a timestamp with a UTC offset. -/
def Aware (text : String) : Prop := ∃ t : DateTime, t.utcoffset.isSome ∧ text = t.isoformat

@[simp] theorem instantOf_isoformat (t : DateTime) : instantOf t.isoformat = t.instant := by
  rw [instantOf, fromIsoformat_isoformat, Option.map_some, Option.getD_some]

section
variable {ρ : Type} {timestamp : ρ → String}

/-- The listing has exactly the rows, each once, in order of their instants. -/
structure Chronological (timestamp : ρ → String) (rows listing : List ρ) : Prop where
  rows : listing.Perm rows
  sorted : listing.Pairwise fun a b => instantOf (timestamp a) ≤ instantOf (timestamp b)

/-- The clock orders the timestamps of any two rows as time does. -/
def ClockOrderedRows (timestamp : ρ → String) (rows : List ρ) : Prop :=
  ∀ a ∈ rows, ∀ b ∈ rows, ∀ t u : DateTime, timestamp a = t.isoformat →
    timestamp b = u.isoformat → ClockOrdered t u

/-- The clock orders timestamps of one offset as time does. -/
theorem clockOrderedRows_of_offset {timestamp : ρ → String} {rows : List ρ} {offset : Option ℤ}
    (h : ∀ row ∈ rows, ∃ t : DateTime, timestamp row = t.isoformat ∧ t.utcoffset = offset) :
    ClockOrderedRows timestamp rows := by
  have hoffset : ∀ row ∈ rows, ∀ t : DateTime, timestamp row = t.isoformat →
      t.utcoffset = offset := by
    intro row hrow t ht
    obtain ⟨t', ht', hutc⟩ := h row hrow
    have hsame : some t = some t' := by
      rw [← fromIsoformat_isoformat t, ← ht, ht', fromIsoformat_isoformat]
    rw [Option.some.inj hsame, hutc]
  intro a ha b hb t u hat hbu
  refine ClockOrdered.of_offset_eq ?_
  rw [DateTime.offset, DateTime.offset, hoffset a ha t hat, hoffset b hb u hbu]

/-- A listing in order of a text is in any order that equal texts do not decide exactly if the
texts, where they differ, decide as that order does. -/
theorem pairwise_iff_of_sorted {R S : ρ → ρ → Prop} {key : ρ → String} {l : List ρ}
    (hsorted : l.Pairwise R) (hkey : ∀ a b, R a b → key a ≤ key b)
    (hties : ∀ a ∈ l, ∀ b ∈ l, key a = key b → S a b) :
    l.Pairwise S ↔ ∀ a ∈ l, ∀ b ∈ l, key a < key b → S a b := by
  constructor
  · intro hS a ha b hb hlt
    obtain ⟨i, hi, rfl⟩ := List.getElem_of_mem ha
    obtain ⟨j, hj, rfl⟩ := List.getElem_of_mem hb
    rcases lt_trichotomy i j with hij | hij | hij
    · exact List.pairwise_iff_getElem.mp hS i j hi hj hij
    · subst hij
      exact absurd hlt (lt_irrefl _)
    · have hR := List.pairwise_iff_getElem.mp hsorted j i hj hi hij
      exact absurd hlt (not_lt_of_ge (hkey _ _ hR))
  · intro h
    refine hsorted.imp_of_mem ?_
    intro a b ha hb hR
    rcases (hkey a b hR).lt_or_eq with hlt | heq
    · exact h a ha b hb hlt
    · exact hties a ha b hb heq

/-- **Listings.**  Rows sorted by the text of their timestamps are chronological exactly if the
clock orders the timestamps as time does. -/
theorem chronological_iff {R : ρ → ρ → Prop} {rows listing : List ρ}
    (haware : ∀ r ∈ rows, Aware (timestamp r)) (hperm : listing.Perm rows)
    (hsorted : listing.Pairwise R) (hkey : ∀ a b, R a b → timestamp a ≤ timestamp b) :
    Chronological timestamp rows listing ↔ ClockOrderedRows timestamp rows := by
  have hiff := pairwise_iff_of_sorted
    (S := fun a b => instantOf (timestamp a) ≤ instantOf (timestamp b)) hsorted hkey
    (fun a _ b _ hab => by rw [hab])
  constructor
  · rintro ⟨-, hchron⟩ a ha b hb t u hat hbu
    have hall := hiff.mp hchron
    have haware' : ∀ {r : ρ} {v : DateTime}, r ∈ rows → timestamp r = v.isoformat →
        v.utcoffset.isSome := by
      intro r v hr hv
      obtain ⟨w, hw, hrw⟩ := haware r hr
      have hvw : some v = some w := by
        rw [← fromIsoformat_isoformat v, ← hv, hrw, fromIsoformat_isoformat]
      rwa [Option.some.inj hvw]
    refine ((isoformat_chronological_iff (haware' ha hat) (haware' hb hbu)).mp ⟨?_, ?_⟩).1
    · intro hlt
      have h := hall a (hperm.mem_iff.mpr ha) b (hperm.mem_iff.mpr hb)
      rw [hat, hbu, instantOf_isoformat, instantOf_isoformat] at h
      exact h hlt
    · intro hlt
      have h := hall b (hperm.mem_iff.mpr hb) a (hperm.mem_iff.mpr ha)
      rw [hat, hbu, instantOf_isoformat, instantOf_isoformat] at h
      exact h hlt
  · intro hclock
    refine ⟨hperm, hiff.mpr ?_⟩
    intro a ha b hb hlt
    obtain ⟨t, ht, hat⟩ := haware a (hperm.mem_iff.mp ha)
    obtain ⟨u, hu, hbu⟩ := haware b (hperm.mem_iff.mp hb)
    have hab := hclock a (hperm.mem_iff.mp ha) b (hperm.mem_iff.mp hb) t u hat hbu
    have hba := hclock b (hperm.mem_iff.mp hb) a (hperm.mem_iff.mp ha) u t hbu hat
    rw [hat, hbu] at hlt
    rw [hat, hbu, instantOf_isoformat, instantOf_isoformat]
    exact ((isoformat_chronological_iff ht hu).mpr ⟨hab, hba⟩).1 hlt

end

/-! ## The listings of both services -/

/-- These are the latest `n` of the rows, or all of them when there are fewer, latest first. -/
def Latest (n : ℕ) (rows recent : List StoredTransaction) : Prop :=
  recent.length = min n rows.length ∧ ∃ older, (recent ++ older).Perm rows ∧
    (recent ++ older).Pairwise fun a b =>
      instantOf b.eventTimestamp ≤ instantOf a.eventTimestamp

/-- `list_transactions` is chronological, and `get_account` reports the latest ten transactions. -/
def AccountDB.Chronological (db : AccountDB) (accountId : String) : Prop :=
  EventLedger.Chronological StoredTransaction.eventTimestamp (db.rowsOf accountId)
    (db.listTransactions accountId) ∧
  ∀ answer, getAccount db accountId = some answer → ∃ recent,
    answer.recentTransactions = recent.map (·.toResponse false) ∧
      Latest 10 (db.rowsOf accountId) recent

/-- `list_events` is chronological. -/
def GatewayDB.Chronological (db : GatewayDB) (accountId : String) : Prop :=
  EventLedger.Chronological StoredEvent.eventTimestamp (db.rowsOf accountId)
    (db.listEvents accountId)

theorem le_of_orderedBy {ρ : Type} {first second : ρ → String} {a b : ρ}
    (h : orderedBy first second a b) : first a ≤ first b := by
  rcases h with hlt | ⟨heq, -⟩
  · exact hlt.le
  · exact heq.le

theorem listEvents_chronological_iff {db : GatewayDB} {accountId : String}
    (haware : ∀ event ∈ db.events.rows, Aware event.eventTimestamp) :
    db.Chronological accountId ↔
      ClockOrderedRows StoredEvent.eventTimestamp (db.rowsOf accountId) :=
  chronological_iff (fun event h => haware event (List.mem_of_mem_filter h))
    (List.perm_insertionSort _ _) (List.pairwise_insertionSort _ _) fun _ _ => le_of_orderedBy

theorem listTransactions_chronological_iff {db : AccountDB} {accountId : String}
    (haware : ∀ tx ∈ db.transactions.rows, Aware tx.eventTimestamp) :
    EventLedger.Chronological StoredTransaction.eventTimestamp (db.rowsOf accountId)
        (db.listTransactions accountId) ↔
      ClockOrderedRows StoredTransaction.eventTimestamp (db.rowsOf accountId) :=
  chronological_iff (R := orderedBy StoredTransaction.eventTimestamp StoredTransaction.createdAt)
    (fun tx h => haware tx (List.mem_of_mem_filter h)) (listTransactions_perm db accountId)
    (List.pairwise_insertionSort StoredTransaction.listedBefore _) fun _ _ => le_of_orderedBy

/-- The last ten of a chronological listing, reversed, are the latest ten. -/
theorem recentTransactions_latest {rows txs : List StoredTransaction}
    (h : Chronological StoredTransaction.eventTimestamp rows txs) :
    ∃ recent, recentTransactions txs = recent.map (·.toResponse false) ∧ Latest 10 rows recent := by
  have hrev : (txs.drop (txs.length - 10)).reverse ++ txs.reverse.drop 10 = txs.reverse := by
    rw [← List.take_reverse, List.take_append_drop]
  refine ⟨(txs.drop (txs.length - 10)).reverse, ?_, ?_, txs.reverse.drop 10, ?_, ?_⟩
  · rw [recentTransactions, List.map_reverse]
  · rw [List.length_reverse, List.length_drop, h.rows.length_eq]
    omega
  · rw [hrev]
    exact (List.reverse_perm txs).trans h.rows
  · rw [hrev, List.pairwise_reverse]
    exact h.sorted

/-- **Chronological listings.**  An account's events and transactions are listed in the order of
their instants, and its latest ten transactions reported as such, exactly if the clock orders its
timestamps as time does. -/
theorem listings_chronological_iff (gateway : GatewayDB) (accounts : AccountDB) (accountId : String)
    (hevents : ∀ event ∈ gateway.events.rows, Aware event.eventTimestamp)
    (htransactions : ∀ tx ∈ accounts.transactions.rows, Aware tx.eventTimestamp) :
    (gateway.Chronological accountId ↔
      ClockOrderedRows StoredEvent.eventTimestamp (gateway.rowsOf accountId)) ∧
    (accounts.Chronological accountId ↔
      ClockOrderedRows StoredTransaction.eventTimestamp (accounts.rowsOf accountId)) := by
  refine ⟨listEvents_chronological_iff hevents, ?_⟩
  have hlisting : Chronological StoredTransaction.eventTimestamp (accounts.rowsOf accountId)
      (accounts.listTransactions accountId) ↔
        ClockOrderedRows StoredTransaction.eventTimestamp (accounts.rowsOf accountId) :=
    listTransactions_chronological_iff htransactions
  constructor
  · exact fun h => hlisting.mp h.1
  · intro h
    refine ⟨hlisting.mpr h, ?_⟩
    intro answer hanswer
    obtain ⟨balance, -, rfl⟩ := Option.map_eq_some_iff.mp hanswer
    exact recentTransactions_latest (hlisting.mpr h)

/-! ## Two offsets -/

/-- `2026-05-15T15:00:00+02:00`, an hour of the clock after `sampleTimestamp` but an hour before it
in time. -/
def earlierElsewhere : DateTime :=
  { sampleTimestamp with
    hour := 15, minute := 0, second := 0, utcoffset := some 120
    time_range := by decide, offset_range := by decide }

/-- An event of the sample account, as its row is stored. -/
def sampleRow (eventId : String) (timestamp : DateTime) : StoredEvent :=
  { eventId := eventId, accountId := "acct-123", type := .credit, amount := "150",
    currency := "USD", eventTimestamp := timestamp.isoformat, metadataJson := none,
    receivedAt := sampleTimestamp.isoformat }

/-- An event in UTC, and an earlier one two hours ahead of it. -/
def twoOffsets : GatewayDB :=
  { events := ⟨[sampleRow "evt-1" sampleTimestamp, sampleRow "evt-2" earlierElsewhere], by decide⟩
    auditLog := [] }

theorem twoOffsets_aware : ∀ event ∈ twoOffsets.events.rows, Aware event.eventTimestamp := by
  intro event hevent
  rcases List.mem_pair.mp hevent with rfl | rfl
  · exact ⟨sampleTimestamp, rfl, rfl⟩
  · exact ⟨earlierElsewhere, rfl, rfl⟩

/-- The earlier event of `twoOffsets` is listed second. -/
theorem listing_not_chronological :
    ¬ ∀ (db : GatewayDB) (accountId : String),
      (∀ event ∈ db.events.rows, Aware event.eventTimestamp) → db.Chronological accountId := by
  intro h
  have hchron := (h twoOffsets "acct-123" twoOffsets_aware).sorted
  have hlisting : twoOffsets.listEvents "acct-123" =
      [sampleRow "evt-1" sampleTimestamp, sampleRow "evt-2" earlierElsewhere] := by
    decide +kernel
  rw [hlisting, List.pairwise_pair] at hchron
  have hlt : earlierElsewhere.instant < sampleTimestamp.instant := by decide +kernel
  have hle : sampleTimestamp.instant ≤ earlierElsewhere.instant := by
    rw [← instantOf_isoformat, ← instantOf_isoformat]
    exact hchron
  omega

/-- An hour before `sampleTimestamp`. -/
def hourBefore : DateTime :=
  { sampleTimestamp with hour := 13, time_range := by decide, offset_range := by decide }

/-- Two events that arrive in the other order than they happened. -/
def lateArrival : GatewayDB :=
  { events := ⟨[sampleRow "evt-1" sampleTimestamp, sampleRow "evt-2" hourBefore], by decide⟩
    auditLog := [] }

/-- Their transactions. -/
def lateDimes : AccountDB :=
  { transactions := ⟨[sampleCredit "evt-1" "0.1",
      { sampleCredit "evt-2" "0.1" with eventTimestamp := hourBefore.isoformat }], by decide⟩
    auditLog := [] }

/-- As long as all offsets agree, so do clock and time. -/
theorem listings_chronological_iff_sample :
    lateArrival.Chronological "acct-123" ∧ lateDimes.Chronological "acct-123" ∧
      lateArrival.listEvents "acct-123" =
        [sampleRow "evt-2" hourBefore, sampleRow "evt-1" sampleTimestamp] := by
  have hevents : ∀ event ∈ lateArrival.events.rows, ∃ t : DateTime,
      event.eventTimestamp = t.isoformat ∧ t.utcoffset = some 0 := by
    intro event h
    rcases List.mem_pair.mp h with rfl | rfl
    · exact ⟨sampleTimestamp, rfl, rfl⟩
    · exact ⟨hourBefore, rfl, rfl⟩
  have htransactions : ∀ tx ∈ lateDimes.transactions.rows, ∃ t : DateTime,
      tx.eventTimestamp = t.isoformat ∧ t.utcoffset = some 0 := by
    intro tx h
    rcases List.mem_pair.mp h with rfl | rfl
    · exact ⟨sampleTimestamp, rfl, rfl⟩
    · exact ⟨hourBefore, rfl, rfl⟩
  obtain ⟨hlisted, hreported⟩ := listings_chronological_iff lateArrival lateDimes "acct-123"
    (fun event h => (hevents event h).imp fun t ht => ⟨by rw [ht.2]; rfl, ht.1⟩)
    (fun tx h => (htransactions tx h).imp fun t ht => ⟨by rw [ht.2]; rfl, ht.1⟩)
  refine ⟨hlisted.mpr ?_, hreported.mpr ?_, by decide +kernel⟩
  · exact clockOrderedRows_of_offset fun event h => hevents event (List.mem_of_mem_filter h)
  · exact clockOrderedRows_of_offset fun tx h => htransactions tx (List.mem_of_mem_filter h)

end EventLedger
