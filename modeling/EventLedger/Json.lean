import EventLedger.DecimalDigits

/-!
# JSON values

The values a request's metadata and an audit entry's detail are made of, and
`dumps`, the text they are stored as: ASCII only, everything else escaped as
UTF-16 code units.

A number is the text it is printed as, so that no rounding is in question, and it
may be one of the three that JSON does not have and Python prints all the same.
What a `JSONResponse` can send is `finite`, and `nulled` is what the framework makes
of a value in its own serialisation, with null for each such number.
-/
namespace EventLedger

/-- A JSON value; a number is kept as the literal it is printed with. -/
inductive Json where
  | null
  | bool (b : Bool)
  | number (literal : String)
  | str (s : String)
  | arr (items : List Json)
  | obj (fields : List (String × Json))

namespace Json

/-- A lower-case hexadecimal digit. -/
def hexDigit (n : ℕ) : Char := if n < 10 then Char.ofNat (48 + n) else Char.ofNat (87 + n)

/-- `\uXXXX` for one UTF-16 code unit. -/
def escapeUnit (u : ℕ) : List Char :=
  ['\\', 'u', hexDigit (u / 4096 % 16), hexDigit (u / 256 % 16), hexDigit (u / 16 % 16),
    hexDigit (u % 16)]

/-- A character inside a JSON string. -/
def escapeChar (c : Char) : List Char :=
  if c = '"' then ['\\', '"']
  else if c = '\\' then ['\\', '\\']
  else if c = '\n' then ['\\', 'n']
  else if c = '\r' then ['\\', 'r']
  else if c = '\t' then ['\\', 't']
  else if c.toNat = 12 then ['\\', 'f']
  else if c.toNat = 8 then ['\\', 'b']
  else if 32 ≤ c.toNat ∧ c.toNat ≤ 126 then [c]
  else if c.toNat < 65536 then escapeUnit c.toNat
  else
    -- a surrogate pair
    escapeUnit (55296 + (c.toNat - 65536) / 1024) ++ escapeUnit (56320 + (c.toNat - 65536) % 1024)

/-- A quoted string. -/
def quote (s : String) : String := String.ofList ('"' :: s.toList.flatMap escapeChar ++ ['"'])

mutual

/-- `json.dumps(v)`. -/
def dumps : Json → String
  | .null => "null"
  | .bool true => "true"
  | .bool false => "false"
  | .number literal => literal
  | .str s => quote s
  | .arr items => "[" ++ ", ".intercalate (dumpsItems items) ++ "]"
  | .obj fields => "\x7b" ++ ", ".intercalate (dumpsFields fields) ++ "\x7d"

/-- The items of an array. -/
def dumpsItems : List Json → List String
  | [] => []
  | v :: vs => dumps v :: dumpsItems vs

/-- The members of an object, in order. -/
def dumpsFields : List (String × Json) → List String
  | [] => []
  | (k, v) :: fields => (quote k ++ ": " ++ dumps v) :: dumpsFields fields

end

mutual

/-- `json.dumps(v, allow_nan=False)` does not raise: no number in it is infinite or none. -/
def finite : Json → Bool
  | .number literal => literal ∉ ["NaN", "Infinity", "-Infinity"]
  | .arr items => finiteItems items
  | .obj fields => finiteFields fields
  | .null => true
  | .bool _ => true
  | .str _ => true

/-- The same for the items of an array. -/
def finiteItems : List Json → Bool
  | [] => true
  | v :: vs => finite v && finiteItems vs

/-- The same for the members of an object. -/
def finiteFields : List (String × Json) → Bool
  | [] => true
  | (_, v) :: fields => finite v && finiteFields fields

end

theorem finiteItems_iff {values : List Json} :
    finiteItems values ↔ ∀ value ∈ values, value.finite := by
  induction values with
  | nil => simp [finiteItems]
  | cons value values ih => simp [finiteItems, ih]

mutual

/-- The value in pydantic's JSON mode: NaN and the infinities become null. -/
def nulled : Json → Json
  | .number literal => if literal ∈ ["NaN", "Infinity", "-Infinity"] then .null else .number literal
  | .arr items => .arr (nulledItems items)
  | .obj fields => .obj (nulledFields fields)
  | .null => .null
  | .bool b => .bool b
  | .str s => .str s

/-- The same for the items of an array. -/
def nulledItems : List Json → List Json
  | [] => []
  | v :: vs => nulled v :: nulledItems vs

/-- The same for the members of an object. -/
def nulledFields : List (String × Json) → List (String × Json)
  | [] => []
  | (k, v) :: fields => (k, nulled v) :: nulledFields fields

end

mutual

/-- What JSON mode leaves unchanged: what is finite. -/
theorem nulled_eq_iff (v : Json) : nulled v = v ↔ v.finite := by
  cases v with
  | number literal =>
    simp only [nulled, finite, decide_eq_true_eq]
    split
    · simp [*]
    · simp [*]
  | arr items => simpa only [nulled, finite, Json.arr.injEq] using nulledItems_eq_iff items
  | obj fields => simpa only [nulled, finite, Json.obj.injEq] using nulledFields_eq_iff fields
  | _ => simp [nulled, finite]

theorem nulledItems_eq_iff (vs : List Json) : nulledItems vs = vs ↔ finiteItems vs := by
  cases vs with
  | nil => simp [nulledItems, finiteItems]
  | cons v vs =>
    simp [nulledItems, finiteItems, nulled_eq_iff v, nulledItems_eq_iff vs]

theorem nulledFields_eq_iff (fields : List (String × Json)) :
    nulledFields fields = fields ↔ finiteFields fields := by
  cases fields with
  | nil => simp [nulledFields, finiteFields]
  | cons field fields =>
    obtain ⟨k, v⟩ := field
    simp [nulledFields, finiteFields, nulled_eq_iff v, nulledFields_eq_iff fields]

end

end Json

end EventLedger
