import EventLedger.DecimalDigits
import EventLedger.Json
import EventLedger.OrderedDict

/-!
# Reading JSON

`loads` is the decoder of the standard library: blanks between tokens, strict
strings, the grammar of numbers, objects as dictionaries.  What a number's text
becomes, as a Python number printed again, is a parameter.

Reading undoes printing (`loads_dumps`) for every value that is one (`Printed`):
numbers are kept as they are printed, and the keys of an object are different.

The decoder has a budget of nested values, which the length of its input is always
enough for.  That Python's own runs out at a depth that does not grow with the input
is a failure of the response it reads, and belongs to the client's model.
-/
namespace EventLedger
namespace Json

open OrderedDict

/-! ## Numbers -/

/-- A character a number can go on with. -/
def isNumberChar (c : Char) : Bool := c.isDigit || c ∈ ['.', 'e', 'E', '+', '-']

/-- What follows is not the continuation of a number. -/
def Ends (rest : List Char) : Prop := ∀ c ∈ rest.head?, isNumberChar c = false

/-- `[0-9]*`. -/
def dropDigits (cs : List Char) : List Char := cs.dropWhile Char.isDigit

/-- `(\.[0-9]+)?`. -/
def dropFraction (cs : List Char) : List Char :=
  match cs with
  | c :: d :: ds => if c = '.' ∧ d.isDigit then dropDigits ds else cs
  | _ => cs

/-- `[-+]?`. -/
def dropSign (cs : List Char) : List Char :=
  match cs with
  | c :: rest => if c = '-' ∨ c = '+' then rest else cs
  | [] => []

/-- `([eE][-+]?[0-9]+)?`. -/
def dropExponent (cs : List Char) : List Char :=
  match cs with
  | e :: rest =>
    if e = 'e' ∨ e = 'E' then
      match dropSign rest with
      | d :: ds => if d.isDigit then dropDigits ds else cs
      | [] => cs
    else cs
  | [] => []

/-- `(?:0|[1-9][0-9]*)` and what may come after it. -/
def dropNatural (cs : List Char) : Option (List Char) :=
  match cs with
  | c :: rest =>
    if c = '0' then some (dropExponent (dropFraction rest))
    else if c.isDigit then some (dropExponent (dropFraction (dropDigits rest)))
    else none
  | [] => none

/-- What follows the number at the front of a text. -/
def dropNumber (cs : List Char) : Option (List Char) :=
  match cs with
  | c :: rest => if c = '-' then dropNatural rest else dropNatural cs
  | [] => none

section
variable {rest : List Char}

theorem Ends.isDigit (h : Ends rest) : ∀ c ∈ rest.head?, c.isDigit = false := by
  intro c hc
  have hnot := h c hc
  rw [isNumberChar, Bool.or_eq_false_iff] at hnot
  exact hnot.1

theorem Ends.ne {c : Char} (h : Ends rest) (hc : isNumberChar c = true) : ∀ cs, rest ≠ c :: cs := by
  rintro cs rfl
  have hnot := h c rfl
  rw [hc] at hnot
  cases hnot

theorem dropDigits_append (h : Ends rest) (cs : List Char) :
    dropDigits (cs ++ rest) = dropDigits cs ++ rest := by
  induction cs with
  | nil =>
    cases rest with
    | nil => rfl
    | cons c rest =>
      have hc := h.isDigit c rfl
      simp [dropDigits, hc]
  | cons c cs ih =>
    unfold dropDigits at ih ⊢
    rw [List.cons_append, List.dropWhile_cons, List.dropWhile_cons]
    split
    · exact ih
    · rfl

theorem dropFraction_append (h : Ends rest) (cs : List Char) :
    dropFraction (cs ++ rest) = dropFraction cs ++ rest := by
  match cs with
  | [] =>
    cases rest with
    | nil => rfl
    | cons c rest =>
      have hc : c ≠ '.' := fun hc => h.ne (c := '.') (by decide) rest (by rw [hc])
      cases rest with
      | nil => rfl
      | cons d rest => simp [dropFraction, hc]
  | [c] =>
    cases rest with
    | nil => rfl
    | cons d rest =>
      have hd := h.isDigit d rfl
      simp [dropFraction, hd]
  | c :: d :: ds =>
    simp only [List.cons_append, dropFraction]
    split
    · exact dropDigits_append h ds
    · rfl

theorem dropSign_append (h : Ends rest) (cs : List Char) :
    dropSign (cs ++ rest) = dropSign cs ++ rest := by
  cases cs with
  | nil =>
    cases rest with
    | nil => rfl
    | cons c rest =>
      have hminus : c ≠ '-' := fun hc => h.ne (c := '-') (by decide) rest (by rw [hc])
      have hplus : c ≠ '+' := fun hc => h.ne (c := '+') (by decide) rest (by rw [hc])
      simp [dropSign, hminus, hplus]
  | cons c cs =>
    simp only [List.cons_append, dropSign]
    split
    · rfl
    · rfl

theorem dropExponent_append (h : Ends rest) (cs : List Char) :
    dropExponent (cs ++ rest) = dropExponent cs ++ rest := by
  cases cs with
  | nil =>
    cases rest with
    | nil => rfl
    | cons c rest =>
      have hlower : c ≠ 'e' := fun hc => h.ne (c := 'e') (by decide) rest (by rw [hc])
      have hupper : c ≠ 'E' := fun hc => h.ne (c := 'E') (by decide) rest (by rw [hc])
      simp [dropExponent, hlower, hupper]
  | cons e cs =>
    simp only [List.cons_append, dropExponent]
    split
    · rw [dropSign_append h]
      cases dropSign cs with
      | nil =>
        cases rest with
        | nil => rfl
        | cons d rest =>
          have hd := h.isDigit d rfl
          simp [hd]
      | cons d ds =>
        dsimp only [List.cons_append]
        split
        · exact dropDigits_append h ds
        · rfl
    · rfl

theorem dropNatural_append (h : Ends rest) {cs : List Char} (hcs : cs ≠ []) :
    dropNatural (cs ++ rest) = (dropNatural cs).map (· ++ rest) := by
  cases cs with
  | nil => exact absurd rfl hcs
  | cons c cs =>
    simp only [List.cons_append, dropNatural]
    split
    · rw [dropFraction_append h, dropExponent_append h]
      rfl
    · split
      · rw [dropDigits_append h, dropFraction_append h, dropExponent_append h]
        rfl
      · rfl

/-- **Numbers are maximal.**  What follows does not change where a number ends. -/
theorem dropNumber_append (h : Ends rest) {cs cs' : List Char} (hcs : dropNumber cs = some cs') :
    dropNumber (cs ++ rest) = some (cs' ++ rest) := by
  cases cs with
  | nil => cases hcs
  | cons c cs =>
    simp only [List.cons_append, dropNumber] at hcs ⊢
    split
    · rename_i hc
      rw [if_pos hc] at hcs
      have hne : cs ≠ [] := by
        rintro rfl
        cases hcs
      rw [dropNatural_append h hne, hcs]
      rfl
    · rename_i hc
      rw [if_neg hc] at hcs
      rw [← List.cons_append, dropNatural_append h (List.cons_ne_nil c cs), hcs]
      rfl

end

/-! ## Strings -/

/-- The value of a hexadecimal digit. -/
def hexValue (c : Char) : Option ℕ :=
  if c.isDigit then some (c.toNat - 48)
  else if 97 ≤ c.toNat ∧ c.toNat ≤ 102 then some (c.toNat - 87)
  else if 65 ≤ c.toNat ∧ c.toNat ≤ 70 then some (c.toNat - 55)
  else none

/-- The code unit behind `\u`. -/
def codeUnit (a b c d : Char) : Option ℕ := do
  return 4096 * (← hexValue a) + 256 * (← hexValue b) + 16 * (← hexValue c) + (← hexValue d)

/-- The character behind a backslash. -/
def unescape (c : Char) : Option Char :=
  if c = '"' then some '"' else if c = '\\' then some '\\' else if c = '/' then some '/'
  else if c = 'b' then some (Char.ofNat 8) else if c = 'f' then some (Char.ofNat 12)
  else if c = 'n' then some '\n' else if c = 'r' then some '\r'
  else if c = 't' then some '\t' else none

/-- What a code unit adds to a string, after the first half of a surrogate pair or after anything
else; a lone surrogate is no character here. -/
def joinUnit (high : Option ℕ) (u : ℕ) : Option (Option ℕ × List Char) :=
  match high with
  | none =>
    if 0xD800 ≤ u ∧ u ≤ 0xDBFF then some (some u, [])
    else if 0xDC00 ≤ u ∧ u ≤ 0xDFFF then none
    else some (none, [Char.ofNat u])
  | some high =>
    if 0xDC00 ≤ u ∧ u ≤ 0xDFFF then
      some (none, [Char.ofNat (0x10000 + (high - 0xD800) * 1024 + (u - 0xDC00))])
    else none

/-- The characters up to the closing quote, and what follows it. -/
def scanChars : Option ℕ → List Char → Option (List Char × List Char)
  | _, [] => none
  | high, c :: cs =>
    if c = '\\' then
      match cs with
      | 'u' :: a :: b :: c :: d :: cs =>
        (codeUnit a b c d).bind fun u =>
          (joinUnit high u).bind fun (high, s) =>
            (scanChars high cs).map fun (t, rest) => (s ++ t, rest)
      | e :: cs =>
        if high.isSome then none
        else (unescape e).bind fun c =>
          (scanChars none cs).map fun (t, rest) => (c :: t, rest)
      | [] => none
    else if high.isSome then none
    else if c = '"' then some ([], cs)
    else if c.toNat < 32 then none
    else (scanChars none cs).map fun (t, rest) => (c :: t, rest)

/-- A string behind its opening quote. -/
def scanString (cs : List Char) : Option (String × List Char) :=
  (scanChars none cs).map fun (s, rest) => (String.ofList s, rest)

theorem hexValue_hexDigit {n : ℕ} (h : n < 16) : hexValue (hexDigit n) = some n := by
  have hall : ∀ m : Fin 16, hexValue (hexDigit m) = some m.val := by decide
  exact hall ⟨n, h⟩

theorem scanChars_unit (high : Option ℕ) (a b c d : Char) (cs : List Char) :
    scanChars high ('\\' :: 'u' :: a :: b :: c :: d :: cs) =
      (codeUnit a b c d).bind fun u =>
        (joinUnit high u).bind fun (high, s) =>
          (scanChars high cs).map fun (t, rest) => (s ++ t, rest) := by
  rw [scanChars]
  simp

theorem scanChars_escape {e c : Char} (he : unescape e = some c) (cs : List Char) :
    scanChars none ('\\' :: e :: cs) =
      (scanChars none cs).map fun (t, rest) => (c :: t, rest) := by
  have hne : e ≠ 'u' := by
    rintro rfl
    cases he
  rw [scanChars.eq_def]
  simp [hne, he]

/-- A character that stands for itself. -/
theorem scanChars_plain {c : Char} (hslash : c ≠ '\\') (hquote : c ≠ '"') (hc : ¬ c.toNat < 32)
    (cs : List Char) :
    scanChars none (c :: cs) = (scanChars none cs).map fun (t, rest) => (c :: t, rest) := by
  rw [scanChars.eq_def]
  simp [hslash, hquote, hc]

/-- What a code unit makes of the text behind it. -/
theorem scanChars_escapeUnit {u : ℕ} (h : u < 65536) (high : Option ℕ) (cs : List Char) :
    scanChars high (escapeUnit u ++ cs) =
      (joinUnit high u).bind fun (high, s) =>
        (scanChars high cs).map fun (t, rest) => (s ++ t, rest) := by
  have hunit : codeUnit (hexDigit (u / 4096 % 16)) (hexDigit (u / 256 % 16))
      (hexDigit (u / 16 % 16)) (hexDigit (u % 16)) = some u := by
    rw [codeUnit, hexValue_hexDigit (by omega), hexValue_hexDigit (by omega),
      hexValue_hexDigit (by omega), hexValue_hexDigit (by omega)]
    show some _ = some u
    congr 1
    omega
  rw [escapeUnit, List.cons_append, List.cons_append, List.cons_append, List.cons_append,
    List.cons_append, List.cons_append, List.nil_append, scanChars_unit, hunit]
  rfl

/-- The two halves of a surrogate pair. -/
theorem scanChars_pair {c : Char} {high low : ℕ} (hhigh : 0xD800 ≤ high ∧ high ≤ 0xDBFF)
    (hlow : 0xDC00 ≤ low ∧ low ≤ 0xDFFF)
    (hc : 0x10000 + (high - 0xD800) * 1024 + (low - 0xDC00) = c.toNat) (cs : List Char) :
    scanChars none (escapeUnit high ++ escapeUnit low ++ cs) =
      (scanChars none cs).map fun (t, rest) => (c :: t, rest) := by
  have hfirst : joinUnit none high = some (some high, []) := by rw [joinUnit, if_pos hhigh]
  have hsecond : joinUnit (some high) low = some (none, [c]) := by
    rw [joinUnit, if_pos hlow, hc, Char.ofNat_toNat]
  rw [List.append_assoc, scanChars_escapeUnit (by omega), hfirst]
  dsimp only [Option.bind_some]
  rw [scanChars_escapeUnit (by omega), hsecond]
  dsimp only [Option.bind_some]
  rw [Option.map_map]
  rfl

theorem scanChars_escapeChar (c : Char) (cs : List Char) :
    scanChars none (escapeChar c ++ cs) =
      (scanChars none cs).map fun (t, rest) => (c :: t, rest) := by
  unfold escapeChar
  split
  · rename_i hc
    rw [hc]
    exact scanChars_escape (c := '"') rfl cs
  split
  · rename_i hc
    rw [hc]
    exact scanChars_escape (c := '\\') rfl cs
  split
  · rename_i hc
    rw [hc]
    exact scanChars_escape (c := '\n') rfl cs
  split
  · rename_i hc
    rw [hc]
    exact scanChars_escape (c := '\r') rfl cs
  split
  · rename_i hc
    rw [hc]
    exact scanChars_escape (c := '\t') rfl cs
  split
  · rename_i hc
    rw [← Char.ofNat_toNat c, hc]
    exact scanChars_escape (e := 'f') rfl cs
  split
  · rename_i hc
    rw [← Char.ofNat_toNat c, hc]
    exact scanChars_escape (e := 'b') rfl cs
  split
  · rename_i hquote hslash _ _ _ _ _ hc
    exact scanChars_plain hslash hquote (by omega) cs
  have hvalid : c.toNat < 0xD800 ∨ 0xDFFF < c.toNat ∧ c.toNat < 0x110000 := c.valid
  split
  · rename_i hc
    have hjoin : joinUnit none c.toNat = some (none, [c]) := by
      rw [joinUnit, if_neg (by omega), if_neg (by omega), Char.ofNat_toNat]
    rw [scanChars_escapeUnit hc, hjoin]
    rfl
  · exact scanChars_pair (by omega) (by omega) (by omega) cs

/-- **Strings read back.** -/
theorem scanString_quote (s : String) (rest : List Char) :
    ∃ cs, (quote s).toList ++ rest = '"' :: cs ∧ scanString cs = some (s, rest) := by
  refine ⟨s.toList.flatMap escapeChar ++ ('"' :: rest), by simp [quote], ?_⟩
  have hscan : ∀ cs : List Char,
      scanChars none (cs.flatMap escapeChar ++ '"' :: rest) = some (cs, rest) := by
    intro cs
    induction cs with
    | nil =>
      rw [List.flatMap_nil, List.nil_append, scanChars.eq_def]
      rfl
    | cons c cs ih =>
      rw [List.flatMap_cons, List.append_assoc, scanChars_escapeChar, ih]
      rfl
  rw [scanString, hscan]
  exact congrArg some (Prod.ext String.ofList_toList rfl)

/-! ## Values -/

/-- `[ \t\n\r]*`. -/
def skipBlanks (cs : List Char) : List Char := cs.dropWhile (· ∈ [' ', '\t', '\n', '\r'])

/-- The constants, tried before and after the numbers. -/
def scanConstant (constants : List (String × Json)) (cs : List Char) :
    Option (Json × List Char) :=
  constants.findSome? fun (name, v) => (name.toList.isPrefixOf? cs).map (v, ·)

/-- A number, as Python prints it again. -/
def scanNumber (repr : String → Option String) (cs : List Char) : Option (Json × List Char) :=
  (dropNumber cs).bind fun rest =>
    (repr (String.ofList (cs.take (cs.length - rest.length)))).map fun literal =>
      (.number literal, rest)

/-- A value that is neither a string nor a container. -/
def scanAtom (repr : String → Option String) (cs : List Char) : Option (Json × List Char) :=
  (scanConstant [("null", .null), ("true", .bool true), ("false", .bool false)] cs).or <|
    if (dropNumber cs).isSome then scanNumber repr cs
    else scanConstant [("NaN", .number "NaN"), ("Infinity", .number "Infinity"),
      ("-Infinity", .number "-Infinity")] cs

/-- `dict(pairs)`. -/
def dictionary (pairs : List (String × Json)) : List (String × Json) :=
  pairs.foldl (fun fields pair => Dict.assign pair.1 pair.2 fields) []

mutual

/-- `scan_once`, with so much fuel. -/
def scanValue (repr : String → Option String) : ℕ → List Char → Option (Json × List Char)
  | 0, _ => none
  | _, [] => none
  | fuel + 1, c :: cs =>
    if c = '"' then (scanString cs).map fun (s, rest) => (.str s, rest)
    else if c = '[' then
      match skipBlanks cs with
      | ']' :: rest => some (.arr [], rest)
      | cs => (scanItems repr fuel cs).map fun (items, rest) => (.arr items, rest)
    else if c = '{' then
      match skipBlanks cs with
      | '}' :: rest => some (.obj [], rest)
      | cs => (scanMembers repr fuel cs).map fun (pairs, rest) => (.obj (dictionary pairs), rest)
    else scanAtom repr (c :: cs)

/-- The items of an array, up to the closing bracket. -/
def scanItems (repr : String → Option String) : ℕ → List Char → Option (List Json × List Char)
  | 0, _ => none
  | fuel + 1, cs =>
    (scanValue repr fuel cs).bind fun (v, cs) =>
      match skipBlanks cs with
      | ',' :: cs => (scanItems repr fuel (skipBlanks cs)).map fun (vs, rest) => (v :: vs, rest)
      | ']' :: rest => some ([v], rest)
      | _ => none

/-- The members of an object, up to the closing brace. -/
def scanMembers (repr : String → Option String) :
    ℕ → List Char → Option (List (String × Json) × List Char)
  | 0, _ => none
  | fuel + 1, cs =>
    match cs with
    | '"' :: cs =>
      (scanString cs).bind fun (key, cs) =>
        match skipBlanks cs with
        | ':' :: cs =>
          (scanValue repr fuel (skipBlanks cs)).bind fun (v, cs) =>
            match skipBlanks cs with
            | ',' :: cs =>
              (scanMembers repr fuel (skipBlanks cs)).map fun (pairs, rest) =>
                ((key, v) :: pairs, rest)
            | '}' :: rest => some ([(key, v)], rest)
            | _ => none
        | _ => none
    | _ => none

end

/-- `json.loads(text)`; every container opens with a character of its own, so the length of the
text is fuel enough. -/
def loads (repr : String → Option String) (text : String) : Option Json :=
  (scanValue repr (text.toList.length + 1) (skipBlanks text.toList)).bind fun (v, rest) =>
    if (skipBlanks rest).isEmpty then some v else none

mutual

/-- The value is kept as Python prints it: the numbers as they print again, the keys of an object
different. -/
def Printed (repr : String → Option String) : Json → Prop
  | .number literal =>
    literal ∈ ["NaN", "Infinity", "-Infinity"] ∨
      dropNumber literal.toList = some [] ∧ repr literal = some literal
  | .arr items => PrintedItems repr items
  | .obj fields => (fields.map Prod.fst).Nodup ∧ PrintedFields repr fields
  | .null => True
  | .bool _ => True
  | .str _ => True

/-- The same for the items of an array. -/
def PrintedItems (repr : String → Option String) : List Json → Prop
  | [] => True
  | v :: vs => Printed repr v ∧ PrintedItems repr vs

/-- The same for the members of an object. -/
def PrintedFields (repr : String → Option String) : List (String × Json) → Prop
  | [] => True
  | (_, v) :: fields => Printed repr v ∧ PrintedFields repr fields

end

/-- The text starts as a value does. -/
def Starts (cs : List Char) : Prop :=
  ∃ c tail, cs = c :: tail ∧ c ∉ [' ', '\t', '\n', '\r', ']']

section
variable {repr : String → Option String} {cs rest : List Char}

theorem skipBlanks_cons {c : Char} (hc : c ∉ [' ', '\t', '\n', '\r']) (cs : List Char) :
    skipBlanks (c :: cs) = c :: cs :=
  List.dropWhile_cons_of_neg (by simpa using hc)

theorem Starts.append (h : Starts cs) (rest : List Char) : Starts (cs ++ rest) := by
  obtain ⟨c, tail, rfl, hc⟩ := h
  exact ⟨c, tail ++ rest, rfl, hc⟩

theorem Starts.skipBlanks (h : Starts cs) : skipBlanks cs = cs := by
  obtain ⟨c, tail, rfl, hc⟩ := h
  refine skipBlanks_cons ?_ tail
  simp only [List.mem_cons, not_or] at hc ⊢
  exact ⟨hc.1, hc.2.1, hc.2.2.1, hc.2.2.2.1, List.not_mem_nil⟩

theorem Starts.skipBlanks_blank (h : Starts cs) : Json.skipBlanks (' ' :: cs) = cs :=
  (List.dropWhile_cons_of_pos (by decide)).trans h.skipBlanks

theorem dropNumber_head {cs' : List Char} (h : dropNumber cs = some cs') :
    ∃ c tail, cs = c :: tail ∧ (c = '-' ∨ c.isDigit) := by
  cases cs with
  | nil => cases h
  | cons c tail =>
    refine ⟨c, tail, rfl, ?_⟩
    rw [dropNumber] at h
    by_cases hminus : c = '-'
    · exact .inl hminus
    · rw [if_neg hminus, dropNatural] at h
      by_cases hzero : c = '0'
      · exact .inr (by rw [hzero]; rfl)
      · rw [if_neg hzero] at h
        by_cases hdigit : c.isDigit
        · exact .inr hdigit
        · rw [if_neg hdigit] at h
          cases h

theorem scanAtom_number {literal : String} (h : dropNumber literal.toList = some [])
    (hrepr : repr literal = some literal) (hrest : Ends rest) :
    scanAtom repr (literal.toList ++ rest) = some (.number literal, rest) := by
  have hdrop : dropNumber (literal.toList ++ rest) = some rest := dropNumber_append hrest h
  have hconstant : scanConstant [("null", .null), ("true", .bool true), ("false", .bool false)]
      (literal.toList ++ rest) = none := by
    obtain ⟨c, tail, hcs, hc⟩ := dropNumber_head h
    have hne : ∀ d : Char, d ≠ '-' → d.isDigit = false → (d == c) = false := by
      intro d hminus hdigit
      rw [beq_eq_false_iff_ne]
      rintro rfl
      rcases hc with hc | hc
      · exact hminus hc
      · rw [hc] at hdigit
        cases hdigit
    simp [scanConstant, hcs, List.isPrefixOf?, hne 'n' (by decide) (by decide),
      hne 't' (by decide) (by decide), hne 'f' (by decide) (by decide)]
  rw [scanAtom, hconstant, Option.none_or, if_pos (by rw [hdrop]; rfl), scanNumber, hdrop,
    Option.bind_some, List.length_append, Nat.add_sub_cancel, List.take_left,
    String.ofList_toList, hrepr, Option.map_some]

theorem scanValue_atom {c : Char} (hc : c ≠ '"' ∧ c ≠ '[' ∧ c ≠ '{') (fuel : ℕ)
    (cs : List Char) : scanValue repr (fuel + 1) (c :: cs) = scanAtom repr (c :: cs) := by
  rw [scanValue, if_neg hc.1, if_neg hc.2.1, if_neg hc.2.2]

theorem scanValue_constant {name : String} {v : Json}
    (h : (name, v) ∈ [("null", .null), ("true", .bool true), ("false", .bool false),
      ("NaN", .number "NaN"), ("Infinity", .number "Infinity"),
      ("-Infinity", .number "-Infinity")]) (fuel : ℕ) (rest : List Char) :
    scanValue repr (fuel + 1) (name.toList ++ rest) = some (v, rest) := by
  simp only [List.mem_cons, Prod.mk.injEq, List.not_mem_nil, or_false] at h
  rcases h with ⟨rfl, rfl⟩ | ⟨rfl, rfl⟩ | ⟨rfl, rfl⟩ | ⟨rfl, rfl⟩ | ⟨rfl, rfl⟩ | ⟨rfl, rfl⟩
  all_goals exact scanValue_atom (by decide) fuel _

/-- The texts of the items or members of a container, up to its closing character. -/
def listText (texts : List String) : List Char := (", ".intercalate texts).toList

theorem listText_cons (text : String) {texts : List String} (h : texts ≠ []) :
    listText (text :: texts) = text.toList ++ ',' :: ' ' :: listText texts := by
  rw [listText, String.intercalate_cons_of_ne_nil h, String.toList_append, String.toList_append,
    List.append_assoc]
  rfl

theorem listText_singleton (text : String) : listText [text] = text.toList := by
  rw [listText, String.intercalate_singleton]

theorem listText_head (text : String) (texts : List String) :
    ∃ tail, listText (text :: texts) = text.toList ++ tail := by
  by_cases h : texts = []
  · exact ⟨[], by rw [h, listText_singleton, List.append_nil]⟩
  · exact ⟨_, listText_cons text h⟩

theorem starts_dumps {v : Json} (h : v.Printed repr) : Starts (dumps v).toList := by
  cases v with
  | null => exact ⟨'n', _, rfl, by decide⟩
  | bool b =>
    cases b with
    | true => exact ⟨'t', _, rfl, by decide⟩
    | false => exact ⟨'f', _, rfl, by decide⟩
  | number literal =>
    rw [dumps]
    rcases h with h | ⟨h, -⟩
    · simp only [List.mem_cons, List.not_mem_nil, or_false] at h
      rcases h with rfl | rfl | rfl
      · exact ⟨'N', _, rfl, by decide⟩
      · exact ⟨'I', _, rfl, by decide⟩
      · exact ⟨'-', _, rfl, by decide⟩
    · obtain ⟨c, tail, hcs, hc⟩ := dropNumber_head h
      refine ⟨c, tail, hcs, fun hmem => ?_⟩
      simp only [List.mem_cons, List.not_mem_nil, or_false] at hmem
      rcases hmem with rfl | rfl | rfl | rfl | rfl
      all_goals exact absurd hc (by decide)
  | str s => exact ⟨'"', _, by rw [dumps, quote, String.toList_ofList]; rfl, by decide⟩
  | arr items =>
    exact ⟨'[', _, by rw [dumps, String.toList_append, String.toList_append]; rfl, by decide⟩
  | obj fields =>
    exact ⟨'{', _, by rw [dumps, String.toList_append, String.toList_append]; rfl, by decide⟩

/-- Pairs with different keys are the items of their dictionary. -/
theorem dictionary_of_nodup {pairs : List (String × Json)} (h : (pairs.map Prod.fst).Nodup) :
    dictionary pairs = pairs := by
  have hassign : ∀ (pairs fields : List (String × Json)),
      ((fields ++ pairs).map Prod.fst).Nodup →
        pairs.foldl (fun fields pair => Dict.assign pair.1 pair.2 fields) fields =
          fields ++ pairs := by
    intro pairs
    induction pairs with
    | nil => exact fun fields _ => (List.append_nil fields).symm
    | cons pair pairs ih =>
      intro fields hnodup
      have hnew : pair.1 ∉ fields.map Prod.fst := by
        rw [List.map_append, List.nodup_append] at hnodup
        exact fun hmem => hnodup.2.2 pair.1 hmem pair.1 (by simp) rfl
      rw [List.foldl_cons, Dict.assign_of_notMem hnew, ih, List.append_assoc]
      · rfl
      · rw [List.append_assoc]
        exact hnodup
  exact hassign pairs [] h

theorem ends_cons {c : Char} (hc : isNumberChar c = false) (cs : List Char) : Ends (c :: cs) := by
  rintro d ⟨⟩
  exact hc

/-- What follows the opening bracket of an array that is not empty. -/
theorem scanValue_array {cs : List Char} (hcs : Starts cs) (fuel : ℕ) :
    scanValue repr (fuel + 1) ('[' :: cs) =
      (scanItems repr fuel cs).map fun (items, rest) => (.arr items, rest) := by
  rw [scanValue, if_neg (by decide), if_pos rfl, hcs.skipBlanks]
  obtain ⟨c, tail, rfl, hc⟩ := hcs
  split
  · rename_i heq
    rw [List.cons.injEq] at heq
    exact absurd heq.1 fun h => hc (by rw [h]; decide)
  · rfl

/-- What follows the opening brace of an object that is not empty. -/
theorem scanValue_object (fuel : ℕ) (cs : List Char) :
    scanValue repr (fuel + 1) ('{' :: '"' :: cs) =
      (scanMembers repr fuel ('"' :: cs)).map fun (pairs, rest) =>
        (.obj (dictionary pairs), rest) := by
  rw [scanValue, if_neg (by decide), if_neg (by decide), if_pos rfl,
    skipBlanks_cons (by decide)]
  rfl

theorem scanItems_last {v : Json} {fuel : ℕ} {cs : List Char}
    (h : scanValue repr fuel cs = some (v, ']' :: rest)) :
    scanItems repr (fuel + 1) cs = some ([v], rest) := by
  rw [scanItems, h, Option.bind_some]
  rfl

theorem scanItems_cons {v : Json} {fuel : ℕ} {cs next : List Char} (hnext : Starts next)
    (h : scanValue repr fuel cs = some (v, ',' :: ' ' :: next)) :
    scanItems repr (fuel + 1) cs =
      (scanItems repr fuel next).map fun (vs, rest) => (v :: vs, rest) := by
  rw [scanItems, h, Option.bind_some]
  dsimp only
  rw [skipBlanks_cons (by decide)]
  show Option.map _ (scanItems repr fuel (skipBlanks (' ' :: next))) = _
  rw [hnext.skipBlanks_blank]

theorem scanMembers_colon {key : String} {cs value : List Char} (hvalue : Starts value)
    (h : scanString cs = some (key, ':' :: ' ' :: value)) (fuel : ℕ) :
    scanMembers repr (fuel + 1) ('"' :: cs) =
      (scanValue repr fuel value).bind fun (v, cs) =>
        match skipBlanks cs with
        | ',' :: cs =>
          (scanMembers repr fuel (skipBlanks cs)).map fun (pairs, rest) =>
            ((key, v) :: pairs, rest)
        | '}' :: rest => some ([(key, v)], rest)
        | _ => none := by
  rw [scanMembers, h, Option.bind_some]
  dsimp only
  rw [skipBlanks_cons (by decide)]
  show (scanValue repr fuel (skipBlanks (' ' :: value))).bind _ = _
  rw [hvalue.skipBlanks_blank]

theorem scanMembers_last {key : String} {v : Json} {fuel : ℕ} {cs value : List Char}
    (hvalue : Starts value) (hkey : scanString cs = some (key, ':' :: ' ' :: value))
    (h : scanValue repr fuel value = some (v, '}' :: rest)) :
    scanMembers repr (fuel + 1) ('"' :: cs) = some ([(key, v)], rest) := by
  rw [scanMembers_colon hvalue hkey, h, Option.bind_some]
  rfl

theorem scanMembers_cons {key : String} {v : Json} {fuel : ℕ} {cs value next : List Char}
    (hvalue : Starts value) (hkey : scanString cs = some (key, ':' :: ' ' :: value))
    (hnext : Starts next) (h : scanValue repr fuel value = some (v, ',' :: ' ' :: next)) :
    scanMembers repr (fuel + 1) ('"' :: cs) =
      (scanMembers repr fuel next).map fun (pairs, rest) => ((key, v) :: pairs, rest) := by
  rw [scanMembers_colon hvalue hkey, h, Option.bind_some]
  dsimp only
  rw [skipBlanks_cons (by decide)]
  show Option.map _ (scanMembers repr fuel (skipBlanks (' ' :: next))) = _
  rw [hnext.skipBlanks_blank]

theorem dumps_arr (items : List Json) (rest : List Char) :
    (dumps (.arr items)).toList ++ rest = '[' :: (listText (dumpsItems items) ++ ']' :: rest) := by
  rw [dumps, String.toList_append, String.toList_append, List.append_assoc, List.append_assoc]
  rfl

theorem dumps_obj (fields : List (String × Json)) (rest : List Char) :
    (dumps (.obj fields)).toList ++ rest =
      '{' :: (listText (dumpsFields fields) ++ '}' :: rest) := by
  rw [dumps, String.toList_append, String.toList_append, List.append_assoc, List.append_assoc]
  rfl

theorem dumps_obj_ne_empty (fields : List (String × Json)) : dumps (.obj fields) ≠ "" := by
  intro htext
  have hdumps := dumps_obj fields []
  rw [htext] at hdumps
  cases hdumps

/-- A member of an object: what is left of it behind its opening quote. -/
theorem member_text (k : String) (v : Json) (rest : List Char) :
    ∃ cs, (quote k ++ ": " ++ dumps v).toList ++ rest = '"' :: cs ∧
      scanString cs = some (k, ':' :: ' ' :: ((dumps v).toList ++ rest)) := by
  obtain ⟨cs, hcs, hscan⟩ := scanString_quote k (':' :: ' ' :: ((dumps v).toList ++ rest))
  refine ⟨cs, ?_, hscan⟩
  rw [← hcs, String.toList_append, String.toList_append, List.append_assoc, List.append_assoc]
  rfl

theorem starts_items {items : List Json} (hne : items ≠ []) (h : PrintedItems repr items)
    (rest : List Char) : Starts (listText (dumpsItems items) ++ rest) := by
  obtain ⟨v, items, rfl⟩ := List.exists_cons_of_ne_nil hne
  obtain ⟨tail, htail⟩ := listText_head (dumps v) (dumpsItems items)
  rw [dumpsItems, htail, List.append_assoc]
  exact (starts_dumps h.1).append _

theorem starts_fields {fields : List (String × Json)} (hne : fields ≠ []) (rest : List Char) :
    ∃ cs, listText (dumpsFields fields) ++ rest = '"' :: cs := by
  obtain ⟨⟨k, v⟩, fields, rfl⟩ := List.exists_cons_of_ne_nil hne
  obtain ⟨tail, htail⟩ := listText_head (quote k ++ ": " ++ dumps v) (dumpsFields fields)
  obtain ⟨cs, hcs, -⟩ := member_text k v (tail ++ rest)
  refine ⟨cs, ?_⟩
  rw [dumpsFields, htail, List.append_assoc, hcs]

/-- The fuel a container leaves for what is in it. -/
theorem length_arr {items : List Json} {fuel : ℕ}
    (h : (dumps (.arr items)).toList.length ≤ fuel + 1) :
    (listText (dumpsItems items)).length + 1 ≤ fuel := by
  have htext := congrArg List.length (dumps_arr items [])
  rw [List.append_nil, List.length_cons, List.length_append] at htext
  simp only [List.length_cons, List.length_nil] at htext
  omega

theorem length_obj {fields : List (String × Json)} {fuel : ℕ}
    (h : (dumps (.obj fields)).toList.length ≤ fuel + 1) :
    (listText (dumpsFields fields)).length + 1 ≤ fuel := by
  have htext := congrArg List.length (dumps_obj fields [])
  rw [List.append_nil, List.length_cons, List.length_append] at htext
  simp only [List.length_cons, List.length_nil] at htext
  omega

/-! ## The round trip

What reads back, whatever follows it, with fuel for its text.
-/

/-- A value reads back. -/
def ValueReads (repr : String → Option String) (v : Json) : Prop :=
  ∀ fuel rest, Ends rest → (dumps v).toList.length ≤ fuel →
    scanValue repr fuel ((dumps v).toList ++ rest) = some (v, rest)

/-- The items of an array read back, up to the bracket that closes it. -/
def ItemsRead (repr : String → Option String) (items : List Json) : Prop :=
  ∀ fuel rest, (listText (dumpsItems items)).length + 1 ≤ fuel →
    scanItems repr fuel (listText (dumpsItems items) ++ ']' :: rest) = some (items, rest)

/-- The members of an object read back, up to the brace that closes it. -/
def MembersRead (repr : String → Option String) (fields : List (String × Json)) : Prop :=
  ∀ fuel rest, (listText (dumpsFields fields)).length + 1 ≤ fuel →
    scanMembers repr fuel (listText (dumpsFields fields) ++ '}' :: rest) = some (fields, rest)

theorem valueReads_of_succ {v : Json} (h : v.Printed repr)
    (hread : ∀ fuel rest, Ends rest → (dumps v).toList.length ≤ fuel + 1 →
      scanValue repr (fuel + 1) ((dumps v).toList ++ rest) = some (v, rest)) :
    ValueReads repr v := by
  intro fuel rest hrest hfuel
  cases fuel with
  | zero =>
    obtain ⟨c, tail, hcs, -⟩ := starts_dumps h
    rw [hcs] at hfuel
    cases hfuel
  | succ fuel => exact hread fuel rest hrest hfuel

theorem constant_reads {v : Json} (h : v.Printed repr)
    (hv : (dumps v, v) ∈ [("null", .null), ("true", .bool true), ("false", .bool false),
      ("NaN", .number "NaN"), ("Infinity", .number "Infinity"),
      ("-Infinity", .number "-Infinity")]) : ValueReads repr v :=
  valueReads_of_succ h fun fuel rest _ _ => scanValue_constant hv fuel rest

theorem number_reads {literal : String} (h : (Json.number literal).Printed repr) :
    ValueReads repr (.number literal) := by
  rcases id h with hname | ⟨hnumber, hrepr⟩
  · refine constant_reads h ?_
    simp only [List.mem_cons, List.not_mem_nil, or_false] at hname
    rcases hname with rfl | rfl | rfl
    all_goals simp [dumps]
  · refine valueReads_of_succ h fun fuel rest hrest _ => ?_
    obtain ⟨c, tail, hcs, hc⟩ := dropNumber_head hnumber
    have hatom := scanAtom_number hnumber hrepr hrest
    rw [dumps]
    rw [hcs] at hatom ⊢
    refine (scanValue_atom ⟨?_, ?_, ?_⟩ fuel (tail ++ rest)).trans hatom
    all_goals
      rintro rfl
      exact absurd hc (by decide)

theorem str_reads (s : String) : ValueReads repr (.str s) := by
  refine valueReads_of_succ trivial fun fuel rest _ _ => ?_
  obtain ⟨cs, hcs, hscan⟩ := scanString_quote s rest
  rw [dumps, hcs, scanValue, if_pos rfl, hscan]
  rfl

theorem arr_reads {items : List Json} (hne : items ≠ []) (h : PrintedItems repr items)
    (hitems : ItemsRead repr items) : ValueReads repr (.arr items) := by
  refine valueReads_of_succ h fun fuel rest _ hfuel => ?_
  rw [dumps_arr, scanValue_array (starts_items hne h _), hitems fuel rest (length_arr hfuel)]
  rfl

theorem obj_reads {fields : List (String × Json)} (hne : fields ≠ [])
    (h : (Json.obj fields).Printed repr) (hmembers : MembersRead repr fields) :
    ValueReads repr (.obj fields) := by
  refine valueReads_of_succ h fun fuel rest _ hfuel => ?_
  have hread := hmembers fuel rest (length_obj hfuel)
  obtain ⟨cs, hcs⟩ := starts_fields hne ('}' :: rest)
  rw [hcs] at hread
  rw [dumps_obj, hcs, scanValue_object, hread, Option.map_some]
  dsimp only
  rw [dictionary_of_nodup h.1]

theorem items_singleton {v : Json} (hv : ValueReads repr v) : ItemsRead repr [v] := by
  intro fuel rest hfuel
  rw [dumpsItems, dumpsItems, listText_singleton] at hfuel ⊢
  cases fuel with
  | zero => cases hfuel
  | succ fuel =>
    exact scanItems_last (hv fuel _ (ends_cons (by decide) rest) (Nat.le_of_succ_le_succ hfuel))

theorem items_cons {v : Json} {items : List Json} (hv : ValueReads repr v) (hne : items ≠ [])
    (h : PrintedItems repr items) (hitems : ItemsRead repr items) :
    ItemsRead repr (v :: items) := by
  intro fuel rest hfuel
  have htexts : dumpsItems items ≠ [] := by
    obtain ⟨w, items, rfl⟩ := List.exists_cons_of_ne_nil hne
    exact List.cons_ne_nil _ _
  rw [dumpsItems, listText_cons _ htexts] at hfuel ⊢
  rw [List.length_append, List.length_cons, List.length_cons] at hfuel
  cases fuel with
  | zero => cases hfuel
  | succ fuel =>
    have hscan := hv fuel (',' :: ' ' :: (listText (dumpsItems items) ++ ']' :: rest))
      (ends_cons (by decide) _) (by omega)
    rw [List.append_assoc]
    refine (scanItems_cons (starts_items hne h _) hscan).trans ?_
    rw [hitems fuel rest (by omega)]
    rfl

theorem members_singleton {k : String} {v : Json} (h : v.Printed repr) (hv : ValueReads repr v) :
    MembersRead repr [(k, v)] := by
  intro fuel rest hfuel
  rw [dumpsFields, dumpsFields, listText_singleton] at hfuel ⊢
  rw [String.toList_append, List.length_append] at hfuel
  obtain ⟨cs, hcs, hkey⟩ := member_text k v ('}' :: rest)
  rw [hcs]
  cases fuel with
  | zero => cases hfuel
  | succ fuel =>
    exact scanMembers_last ((starts_dumps h).append _) hkey
      (hv fuel _ (ends_cons (by decide) rest) (by omega))

theorem members_cons {k : String} {v : Json} {fields : List (String × Json)}
    (h : v.Printed repr) (hv : ValueReads repr v) (hne : fields ≠ [])
    (hfields : MembersRead repr fields) : MembersRead repr ((k, v) :: fields) := by
  intro fuel rest hfuel
  have htexts : dumpsFields fields ≠ [] := by
    obtain ⟨field, fields, rfl⟩ := List.exists_cons_of_ne_nil hne
    exact List.cons_ne_nil _ _
  rw [dumpsFields, listText_cons _ htexts] at hfuel ⊢
  rw [List.length_append, List.length_cons, List.length_cons, String.toList_append,
    List.length_append] at hfuel
  obtain ⟨next, hnext⟩ := starts_fields hne ('}' :: rest)
  obtain ⟨cs, hcs, hkey⟩ := member_text k v
    (',' :: ' ' :: (listText (dumpsFields fields) ++ '}' :: rest))
  cases fuel with
  | zero => cases hfuel
  | succ fuel =>
    have hscan := hv fuel (',' :: ' ' :: (listText (dumpsFields fields) ++ '}' :: rest))
      (ends_cons (by decide) _) (by omega)
    rw [List.append_assoc]
    refine (congrArg (scanMembers repr (fuel + 1)) hcs).trans ?_
    rw [scanMembers_cons ((starts_dumps h).append _) hkey ⟨_, _, hnext, by decide⟩ hscan,
      hfields fuel rest (by omega)]
    rfl

mutual

/-- By induction on the value: what is in a container reads back first. -/
theorem value_reads (v : Json) (h : v.Printed repr) : ValueReads repr v := by
  match v with
  | .null => exact constant_reads h (by simp [dumps])
  | .bool true => exact constant_reads h (by simp [dumps])
  | .bool false => exact constant_reads h (by simp [dumps])
  | .number literal => exact number_reads h
  | .str s => exact str_reads s
  | .arr [] => exact valueReads_of_succ h fun _ _ _ _ => rfl
  | .arr (v :: vs) =>
    exact arr_reads (List.cons_ne_nil v vs) h (items_read (v :: vs) (List.cons_ne_nil v vs) h)
  | .obj [] => exact valueReads_of_succ h fun _ _ _ _ => rfl
  | .obj (field :: fields) =>
    exact obj_reads (List.cons_ne_nil field fields) h
      (members_read (field :: fields) (List.cons_ne_nil field fields) h.2)

theorem items_read (items : List Json) (hne : items ≠ []) (h : PrintedItems repr items) :
    ItemsRead repr items := by
  match items with
  | [v] => exact items_singleton (value_reads v h.1)
  | v :: w :: items =>
    exact items_cons (value_reads v h.1) (List.cons_ne_nil w items) h.2
      (items_read (w :: items) (List.cons_ne_nil w items) h.2)

theorem members_read (fields : List (String × Json)) (hne : fields ≠ [])
    (h : PrintedFields repr fields) : MembersRead repr fields := by
  match fields with
  | [(k, v)] => exact members_singleton h.1 (value_reads v h.1)
  | (k, v) :: field :: fields =>
    exact members_cons h.1 (value_reads v h.1) (List.cons_ne_nil field fields)
      (members_read (field :: fields) (List.cons_ne_nil field fields) h.2)

end

/-- **Reading undoes printing.** -/
theorem loads_dumps {v : Json} (h : v.Printed repr) : loads repr (dumps v) = some v := by
  have hscan := value_reads v h ((dumps v).toList.length + 1) [] (by rintro c ⟨⟩) (Nat.le_succ _)
  rw [List.append_nil] at hscan
  rw [loads, (starts_dumps h).skipBlanks, hscan]
  rfl

end

end Json
end EventLedger
