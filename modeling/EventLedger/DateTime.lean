import EventLedger.DecimalDigits

/-!
# Timestamps

A `DateTime` is a calendar date, a time of day and an optional UTC offset, each
within its range.  `isoformat` prints it the way Python does — no fraction when
there are no microseconds, no offset when it is naive — and `fromIsoformat`
reads exactly that form back.

An offset is one of whole minutes, as the wire format has them, and less than a day
in size.  The text of a timestamp shows its clock and its offset, not its instant:
two texts can be in the other order than the moments they are about.
-/
namespace EventLedger

open DecimalDigits

/-- Days of a month in the Gregorian calendar. -/
def daysInMonth (year month : ℕ) : ℕ :=
  if month = 2 then
    if year % 4 = 0 ∧ (year % 100 ≠ 0 ∨ year % 400 = 0) then 29 else 28
  else if month ∈ [4, 6, 9, 11] then 30 else 31

/-- A date and time, with its UTC offset in minutes when it is aware. -/
structure DateTime where
  year : ℕ
  month : ℕ
  day : ℕ
  hour : ℕ
  minute : ℕ
  second : ℕ
  microsecond : ℕ
  utcoffset : Option ℤ
  year_range : 1 ≤ year ∧ year ≤ 9999
  month_range : 1 ≤ month ∧ month ≤ 12
  day_range : 1 ≤ day ∧ day ≤ daysInMonth year month
  time_range : hour < 24 ∧ minute < 60 ∧ second < 60 ∧ microsecond < 1000000
  offset_range : ∀ m ∈ utcoffset, m.natAbs < 1440
  deriving DecidableEq

/-- `+HH:MM` or `-HH:MM`; nothing for a naive time. -/
def formatOffset : Option ℤ → List Char
  | none => []
  | some m => (if m < 0 then '-' else '+') :: pad 2 (m.natAbs / 60) ++ ':' :: pad 2 (m.natAbs % 60)

/-- The fraction of a second, left out when it is zero. -/
def formatFraction (microsecond : ℕ) : List Char :=
  if microsecond = 0 then [] else '.' :: pad 6 microsecond

/-- `YYYY-MM-DD`. -/
def formatDate (year month day : ℕ) : List Char :=
  pad 4 year ++ ('-' :: pad 2 month ++ ('-' :: pad 2 day))

/-- `HH:MM:SS`. -/
def formatTime (hour minute second : ℕ) : List Char :=
  pad 2 hour ++ (':' :: pad 2 minute ++ (':' :: pad 2 second))

/-- `datetime.isoformat()`. -/
def DateTime.isoformat (t : DateTime) : String :=
  String.ofList (formatDate t.year t.month t.day ++ ('T' :: formatTime t.hour t.minute t.second ++
    (formatFraction t.microsecond ++ formatOffset t.utcoffset)))

/-- A fixed-width number at the front. -/
def readField (w : ℕ) (cs : List Char) : Option (ℕ × List Char) :=
  if (cs.take w).length = w ∧ (cs.take w).all (·.isDigit) then
    some (readDigits (cs.take w), cs.drop w)
  else none

/-- A separator at the front. -/
def expect (c : Char) : List Char → Option (List Char)
  | [] => none
  | x :: xs => if x = c then some xs else none

/-- An optional fraction of exactly six digits. -/
def readFraction : List Char → Option (ℕ × List Char)
  | '.' :: cs => readField 6 cs
  | cs => some (0, cs)

/-- An optional offset, which must be the end of the text. -/
def readOffset : List Char → Option (Option ℤ)
  | [] => some none
  | sign :: cs => do
    let (h, cs) ← readField 2 cs
    let cs ← expect ':' cs
    let (m, cs) ← readField 2 cs
    if cs ≠ [] then none
    else if sign = '-' then some (some (-(60 * h + m : ℕ)))
    else if sign = '+' then some (some (60 * h + m : ℕ))
    else none

/-- Three fixed-width numbers with a separator between them. -/
def readTriple (w : ℕ) (sep : Char) (cs : List Char) : Option ((ℕ × ℕ × ℕ) × List Char) := do
  let (a, cs) ← readField w cs
  let cs ← expect sep cs
  let (b, cs) ← readField 2 cs
  let cs ← expect sep cs
  let (c, cs) ← readField 2 cs
  some ((a, b, c), cs)

/-- The datetime with these fields, if they are all in range. -/
def DateTime.ofFields (year month day hour minute second microsecond : ℕ)
    (utcoffset : Option ℤ) : Option DateTime :=
  if h : (1 ≤ year ∧ year ≤ 9999) ∧ (1 ≤ month ∧ month ≤ 12) ∧
      (1 ≤ day ∧ day ≤ daysInMonth year month) ∧
      (hour < 24 ∧ minute < 60 ∧ second < 60 ∧ microsecond < 1000000) ∧
      ∀ m ∈ utcoffset, m.natAbs < 1440 then
    some ⟨year, month, day, hour, minute, second, microsecond, utcoffset,
      h.1, h.2.1, h.2.2.1, h.2.2.2.1, h.2.2.2.2⟩
  else none

/-- The datetime an ISO 8601 text denotes, for the form `isoformat` writes. -/
def fromIsoformat (s : String) : Option DateTime := do
  let ((year, month, day), cs) ← readTriple 4 '-' s.toList
  let cs ← expect 'T' cs
  let ((hour, minute, second), cs) ← readTriple 2 ':' cs
  let (microsecond, cs) ← readFraction cs
  let utcoffset ← readOffset cs
  DateTime.ofFields year month day hour minute second microsecond utcoffset

theorem readField_pad {w n : ℕ} (rest : List Char) (h : n < 10 ^ w) :
    readField w (pad w n ++ rest) = some (n, rest) := by
  have htake : (pad w n ++ rest).take w = pad w n := List.take_left' (pad_length w n)
  have hdrop : (pad w n ++ rest).drop w = rest := List.drop_left' (pad_length w n)
  have hdigits : (pad w n).all (·.isDigit) = true := List.all_eq_true.mpr (pad_isDigit w n)
  rw [readField, htake, hdrop, pad_length, readDigits_pad_of_lt h, if_pos ⟨rfl, hdigits⟩]

@[simp] theorem expect_cons (c : Char) (rest : List Char) : expect c (c :: rest) = some rest := by
  simp [expect]

theorem readOffset_formatOffset {offset : Option ℤ} (h : ∀ m ∈ offset, m.natAbs < 1440) :
    readOffset (formatOffset offset) = some offset := by
  cases offset with
  | none => rfl
  | some m =>
    have hm : m.natAbs < 1440 := h m rfl
    have hhour : m.natAbs / 60 < 10 ^ 2 := by omega
    have hmin : m.natAbs % 60 < 10 ^ 2 := by omega
    have hlast := readField_pad [] hmin
    rw [List.append_nil] at hlast
    have hparts : 60 * (m.natAbs / 60) + m.natAbs % 60 = m.natAbs := Nat.div_add_mod _ _
    simp only [formatOffset, readOffset, List.cons_append]
    rw [readField_pad _ hhour]
    simp only [Option.bind_eq_bind, Option.bind_some, expect_cons, hlast, hparts]
    by_cases hneg : m < 0
    · have hm' : -((m.natAbs : ℕ) : ℤ) = m := by omega
      rw [if_pos hneg, if_neg (by simp), if_pos rfl, hm']
    · have hm' : ((m.natAbs : ℕ) : ℤ) = m := by omega
      rw [if_neg hneg, if_neg (by simp), if_neg (by decide), if_pos rfl, hm']

/-- Reading three numbers back. -/
theorem readTriple_pad {w a b c : ℕ} (sep : Char) (rest : List Char) (ha : a < 10 ^ w)
    (hb : b < 10 ^ 2) (hc : c < 10 ^ 2) :
    readTriple w sep (pad w a ++ (sep :: pad 2 b ++ (sep :: pad 2 c)) ++ rest) =
      some ((a, b, c), rest) := by
  simp only [readTriple, List.append_assoc, List.cons_append]
  rw [readField_pad _ ha]
  simp only [Option.bind_eq_bind, Option.bind_some, expect_cons]
  rw [readField_pad _ hb]
  simp only [Option.bind_some, expect_cons]
  rw [readField_pad _ hc]
  rfl

/-- The offset starts with a sign, so no fraction is read off it. -/
theorem readFraction_formatFraction {us : ℕ} (offset : Option ℤ) (h : us < 1000000) :
    readFraction (formatFraction us ++ formatOffset offset) = some (us, formatOffset offset) := by
  by_cases hzero : us = 0
  · rw [formatFraction, if_pos hzero, List.nil_append, hzero]
    cases offset with
    | none => rfl
    | some m =>
      by_cases hneg : m < 0 <;> simp [formatOffset, readFraction, hneg]
  · rw [formatFraction, if_neg hzero, List.cons_append]
    exact readField_pad _ (by omega)

/-- **Round trip.**  An ISO timestamp is read back as the datetime it was printed from. -/
theorem fromIsoformat_isoformat (t : DateTime) : fromIsoformat t.isoformat = some t := by
  have hday : t.day < 10 ^ 2 := by
    have hmonth : daysInMonth t.year t.month ≤ 31 := by
      unfold daysInMonth
      split_ifs <;> omega
    have := t.day_range
    omega
  have hyear : t.year < 10 ^ 4 := lt_of_le_of_lt t.year_range.2 (by norm_num)
  have hmonth : t.month < 10 ^ 2 := lt_of_le_of_lt t.month_range.2 (by norm_num)
  have hhour : t.hour < 10 ^ 2 := t.time_range.1.trans (by norm_num)
  have hminute : t.minute < 10 ^ 2 := t.time_range.2.1.trans (by norm_num)
  have hsecond : t.second < 10 ^ 2 := t.time_range.2.2.1.trans (by norm_num)
  have hvalid : DateTime.ofFields t.year t.month t.day t.hour t.minute t.second t.microsecond
      t.utcoffset = some t :=
    dif_pos ⟨t.year_range, t.month_range, t.day_range, t.time_range, t.offset_range⟩
  rw [fromIsoformat, DateTime.isoformat, String.toList_ofList, formatDate,
    readTriple_pad _ _ hyear hmonth hday]
  simp only [Option.bind_eq_bind, Option.bind_some, List.cons_append, expect_cons]
  rw [formatTime, readTriple_pad _ _ hhour hminute hsecond]
  simp only [Option.bind_some, readFraction_formatFraction t.utcoffset t.time_range.2.2.2,
    readOffset_formatOffset t.offset_range]
  exact hvalid

/-- `2026-05-15T14:02:11Z`, the timestamp of the documented sample event. -/
def sampleTimestamp : DateTime where
  year := 2026
  month := 5
  day := 15
  hour := 14
  minute := 2
  second := 11
  microsecond := 0
  utcoffset := some 0
  year_range := by decide
  month_range := by decide
  day_range := by decide
  time_range := by decide
  offset_range := by decide

example : sampleTimestamp.isoformat = "2026-05-15T14:02:11+00:00" := by decide

end EventLedger
