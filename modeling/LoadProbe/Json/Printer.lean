import LoadProbe.Json.Value
import LoadProbe.Number.Layout

/-!
# Writing JSON

`Json.print` is the compact text of a value: no blanks, members in the order in which the value
holds them, strings with the short escapes where there are some. `Json.numberLayout` holds the
decisions on doubles: the fewest digits that read back, in place with at least one digit behind
the point for exponents from -5 to 15, otherwise with a signed exponent; what is not finite is
written `null`.
-/

namespace LoadProbe.Json

open LoadProbe.Number

/-- How doubles are written in JSON. -/
def numberLayout : Layout where
  inPlace leading := decide (-5 ≤ leading) && decide (leading < 16)
  pointZero := true
  tie := .toEven
  notANumber := "null"
  infinity := "null"
  negativeInfinity := "null"

/-- A hexadecimal digit, lower case. -/
def hexDigit (n : Nat) : Char :=
  (Nat.digitChar n)

/-- A character inside a string: the quote, the backslash and the control characters are
escaped, every other character stands for itself. -/
def escapeChar (c : Char) : List Char :=
  if c = '"' then ['\\', '"']
  else if c = '\\' then ['\\', '\\']
  else if c = '\x08' then ['\\', 'b']
  else if c = '\x0c' then ['\\', 'f']
  else if c = '\n' then ['\\', 'n']
  else if c = '\r' then ['\\', 'r']
  else if c = '\t' then ['\\', 't']
  else if c.toNat < 32 then ['\\', 'u', '0', '0', hexDigit (c.toNat / 16), hexDigit (c.toNat % 16)]
  else [c]

/-- The characters of a string literal, quotes included. -/
def quoteChars (s : List Char) : List Char :=
  '"' :: (s.flatMap escapeChar ++ ['"'])

/-- A string literal. -/
def quote (s : String) : String :=
  String.ofList (quoteChars s.toList)

/-- The texts of the items of a list with commas between them. -/
def commaJoined : List String → String
  | [] => ""
  | [s] => s
  | s :: t :: rest => s ++ "," ++ commaJoined (t :: rest)

mutual

/-- The compact text of a value. -/
def print : Json → String
  | .null => "null"
  | .bool b => if b then "true" else "false"
  | .int n => Int.repr n
  | .float x => numberLayout.render x
  | .str s => quote s
  | .arr items => "[" ++ commaJoined (printItems items) ++ "]"
  | .obj members => "\x7b" ++ commaJoined (printMembers members) ++ "\x7d"

/-- The texts of the items of an array. -/
def printItems : List Json → List String
  | [] => []
  | v :: rest => print v :: printItems rest

/-- The texts of the members of an object. -/
def printMembers : List (String × Json) → List String
  | [] => []
  | (k, v) :: rest => (quote k ++ ":" ++ print v) :: printMembers rest

end

end LoadProbe.Json
