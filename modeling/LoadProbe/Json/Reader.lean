import LoadProbe.Json.Value
import LoadProbe.Number.Scaled

/-!
# Reading JSON

`Json.read?` reads a text that holds one JSON document, blanks around it allowed, and nothing
else. The grammar is the strict one: no trailing commas, no leading zeros, no raw control
characters in strings, no escape for half a surrogate pair. A number without fraction and
exponent that fits a word of 64 bits, signed or not, is an integer; every other number, `-0`
among them, is a double, and one beyond all doubles is refused. Arrays and objects nest at most
`maxDepth` deep.

Which double a decimal is read as differs between readers, so `Json.readWith?` leaves it open.
`Json.read?` takes the double that the word and the power of ten of the decimal give
(`Literal.scaledValue?`).
-/

namespace LoadProbe.Json

open LoadProbe.Number

/-- How deep arrays and objects may nest. -/
def maxDepth : Nat := 127

/-- The characters that may stand between tokens. -/
def isBlank (c : Char) : Bool :=
  c = ' ' || c = '\n' || c = '\t' || c = '\r'

def skipBlanks (cs : List Char) : List Char :=
  cs.dropWhile isBlank

/-- The number that four hexadecimal digits stand for. -/
def codeUnit? (a b c d : Char) : Option Nat := do
  let a ← hexValue? a
  let b ← hexValue? b
  let c ← hexValue? c
  let d ← hexValue? d
  return ((a * 16 + b) * 16 + c) * 16 + d

/-- The character that a one-letter escape stands for. -/
def shortEscape? (c : Char) : Option Char :=
  if c = '"' then some '"'
  else if c = '\\' then some '\\'
  else if c = '/' then some '/'
  else if c = 'b' then some '\x08'
  else if c = 'f' then some '\x0c'
  else if c = 'n' then some '\n'
  else if c = 'r' then some '\r'
  else if c = 't' then some '\t'
  else none

/-- A code unit of the first half of a surrogate pair. -/
def isHighHalf (u : Nat) : Bool := decide (0xD800 ≤ u) && decide (u < 0xDC00)

/-- A code unit of the second half of a surrogate pair. -/
def isLowHalf (u : Nat) : Bool := decide (0xDC00 ≤ u) && decide (u < 0xE000)

/-- The characters of a string after its opening quote, and what follows the closing one. -/
def stringBody : List Char → Option (List Char × List Char)
  | [] => none
  | '"' :: rest => some ([], rest)
  | '\\' :: 'u' :: a :: b :: c :: d :: rest => do
    let u ← codeUnit? a b c d
    if isLowHalf u then none
    else if isHighHalf u then
      match rest with
      | '\\' :: 'u' :: e :: f :: g :: h :: rest' => do
        let l ← codeUnit? e f g h
        if isLowHalf l then
          let (s, r) ← stringBody rest'
          return (Char.ofNat (0x10000 + (u - 0xD800) * 0x400 + (l - 0xDC00)) :: s, r)
        else none
      | _ => none
    else
      let (s, r) ← stringBody rest
      return (Char.ofNat u :: s, r)
  | '\\' :: c :: rest => do
    let e ← shortEscape? c
    let (s, r) ← stringBody rest
    return (e :: s, r)
  | c :: rest =>
    if c.toNat < 32 then none
    else do
      let (s, r) ← stringBody rest
      return (c :: s, r)

/-- The part of a number behind the point, point included, and what follows. -/
def fractionPart? : List Char → Option (List Char × List Char)
  | '.' :: rest =>
    let digits := rest.takeWhile Char.isDigit
    if digits.isEmpty then none else some (digits, rest.dropWhile Char.isDigit)
  | cs => some ([], cs)

/-- The exponent of a number, none when there is no exponent mark, and what follows. -/
def exponentPart? : List Char → Option (Option Int × List Char)
  | c :: rest =>
    if c = 'e' ∨ c = 'E' then
      let (negative, rest) := match rest with
        | '-' :: r => (true, r)
        | '+' :: r => (false, r)
        | r => (false, r)
      let digits := rest.takeWhile Char.isDigit
      if digits.isEmpty then none
      else
        let n : Int := naturalOf digits
        some (some (if negative then -n else n), rest.dropWhile Char.isDigit)
    else some (none, c :: rest)
  | [] => some (none, [])

section Decimals

-- the double that a decimal is read as
variable (decimal? : Literal → Option Float)

/-- The value of a number without fraction and exponent. -/
def wholeNumber? (negative : Bool) (digits : List Char) : Option Json :=
  let n : Int := naturalOf digits
  let n := if negative then -n else n
  if negative && n == 0 then some (.float (-0.0))
  else if signed64.contains n || unsigned64.contains n then some (.int n)
  else (decimal? ⟨negative, digits, [], 0⟩).map .float

/-- The digits before the point: one digit, or several of which the first is not zero. -/
def wholePart? (cs : List Char) : Option (List Char × List Char) :=
  match cs.takeWhile Char.isDigit with
  | [] => none
  | '0' :: _ :: _ => none
  | digits => some (digits, cs.dropWhile Char.isDigit)

/-- A number after its sign, and what follows. -/
def unsigned? (negative : Bool) (cs : List Char) : Option (Json × List Char) := do
  let (whole, cs) ← wholePart? cs
  let (fraction, cs) ← fractionPart? cs
  let (exponent, cs) ← exponentPart? cs
  match fraction, exponent with
  | [], none => return (← wholeNumber? decimal? negative whole, cs)
  | _, _ =>
    let x ← decimal? ⟨negative, whole, fraction, exponent.getD 0⟩
    return (.float x, cs)

/-- A number, sign included, and what follows. -/
def number? : List Char → Option (Json × List Char)
  | '-' :: rest => unsigned? decimal? true rest
  | rest => unsigned? decimal? false rest

mutual

/-- A value, blanks before it skipped, and what follows. -/
def value? : Nat → Nat → List Char → Option (Json × List Char)
  | 0, _, _ => none
  | fuel + 1, depth, cs =>
    match skipBlanks cs with
    | 'n' :: 'u' :: 'l' :: 'l' :: rest => some (.null, rest)
    | 't' :: 'r' :: 'u' :: 'e' :: rest => some (.bool true, rest)
    | 'f' :: 'a' :: 'l' :: 's' :: 'e' :: rest => some (.bool false, rest)
    | '"' :: rest => do
      let (s, rest) ← stringBody rest
      return (.str (String.ofList s), rest)
    | '[' :: rest =>
      match depth with
      | 0 => none
      | depth + 1 =>
        match skipBlanks rest with
        | ']' :: rest => some (.arr [], rest)
        | rest => do
          let (vs, rest) ← items? fuel depth rest
          return (.arr vs, rest)
    | '\x7b' :: rest =>
      match depth with
      | 0 => none
      | depth + 1 =>
        match skipBlanks rest with
        | '\x7d' :: rest => some (.obj [], rest)
        | rest => do
          let (ms, rest) ← members? fuel depth [] rest
          return (.obj ms, rest)
    | rest => number? decimal? rest

/-- The items of an array from the first one on, closing bracket included, and what follows. -/
def items? : Nat → Nat → List Char → Option (List Json × List Char)
  | 0, _, _ => none
  | fuel + 1, depth, cs => do
    let (v, rest) ← value? fuel depth cs
    match skipBlanks rest with
    | ',' :: rest => do
      let (vs, rest) ← items? fuel depth rest
      return (v :: vs, rest)
    | ']' :: rest => return ([v], rest)
    | _ => none

/-- The members of an object from the next key on, added to those before it, closing brace
included, and what follows. -/
def members? : Nat → Nat → List (String × Json) → List Char →
    Option (List (String × Json) × List Char)
  | 0, _, _, _ => none
  | fuel + 1, depth, before, cs =>
    match skipBlanks cs with
    | '"' :: rest => do
      let (key, rest) ← stringBody rest
      match skipBlanks rest with
      | ':' :: rest => do
        let (v, rest) ← value? fuel depth rest
        let ms := insertMember (String.ofList key) v before
        match skipBlanks rest with
        | ',' :: rest => members? fuel depth ms rest
        | '\x7d' :: rest => return (ms, rest)
        | _ => none
      | _ => none
    | _ => none

end

/-- The document that a row of characters holds. -/
def readChars? (cs : List Char) : Option Json := do
  let (v, rest) ← value? decimal? (2 * cs.length + 2) maxDepth cs
  if (skipBlanks rest).isEmpty then return v else none

/-- The document that a text holds, `none` when it is not exactly one JSON document. -/
def readWith? (text : String) : Option Json :=
  readChars? decimal? text.toList

end Decimals

/-- The document that a text holds, its decimals read by one word. -/
def read? (text : String) : Option Json :=
  readWith? Literal.scaledValue? text

end LoadProbe.Json
