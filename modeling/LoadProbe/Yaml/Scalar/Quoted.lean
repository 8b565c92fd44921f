import LoadProbe.Number.Literal
import LoadProbe.Yaml.Scalar.Fold

/-!
# Quoted scalars

Between single quotes a quote is written twice and nothing else is special. Between double quotes
a backslash starts an escape: a letter for one character, a letter and some hexadecimal digits for
any character, or a line break that leaves no trace.
-/

namespace LoadProbe.Yaml

open Number

/-- What the letter of an escape stands for. -/
inductive Escape where
  /-- This character. -/
  | char (c : Char)
  /-- The character whose code is written in so many hexadecimal digits. -/
  | coded (digits : Nat)

def Escape.ofLetter? (c : Char) : Option Escape :=
  match c with
  | '0' => some (.char '\x00')
  | 'a' => some (.char '\x07')
  | 'b' => some (.char '\x08')
  | 't' | '\t' => some (.char '\t')
  | 'n' => some (.char '\n')
  | 'v' => some (.char '\x0b')
  | 'f' => some (.char '\x0c')
  | 'r' => some (.char '\r')
  | 'e' => some (.char '\x1b')
  | ' ' => some (.char ' ')
  | '"' => some (.char '"')
  | '/' => some (.char '/')
  | '\\' => some (.char '\\')
  | 'N' => some (.char '\u0085')
  | '_' => some (.char '\u00a0')
  | 'L' => some (.char '\u2028')
  | 'P' => some (.char '\u2029')
  | 'x' => some (.coded 2)
  | 'u' => some (.coded 4)
  | 'U' => some (.coded 8)
  | _ => none

/-- The number that a row of hexadecimal digits stands for. -/
def hexNumber? (digits : List Char) : Option Nat :=
  digits.foldlM (fun n c => (hexValue? c).map (16 * n + ·)) 0

/-- The character with the code that is written at the start of a row in so many digits. -/
def codedChar? (digits : Nat) (spots : List Spot) : Option Char := do
  let code := charsOf (spots.take digits)
  if code.length < digits then none
  else
    let n ← hexNumber? code
    if n.isValidChar then return Char.ofNat n else none

/-- Puts characters in front of a scalar that has been read. -/
def Gap.before (gap : Gap) (cs : List Char) (scalar : Option (List Char × List Spot)) :
    Option (List Char × List Spot) :=
  scalar.map fun (text, rest) => (gap.text ++ cs ++ text, rest)

/-- The text of a quoted scalar from a gap of it on, and what follows the closing quote. -/
def quoted? (quote : Char) (gap : Gap) (spots : List Spot) : Option (List Char × List Spot) :=
  match spots with
  | [] => none
  | s :: rest =>
    let c := s.char
    if isBlank c then quoted? quote (gap.addBlank c) rest
    else if isBreak c then quoted? quote (gap.addBreak c) rest
    else if atDocumentMark (s :: rest) then none
    else if c = quote then
      match rest with
      | t :: rest' =>
        if quote = '\'' && t.char = '\'' then gap.before ['\''] (quoted? quote .none rest')
        else some (gap.text, t :: rest')
      | [] => some (gap.text, [])
    else if c = '\\' && quote = '"' then
      match rest with
      | [] => none
      | e :: rest' =>
        if isBreak e.char then gap.before [] (quoted? quote (.escaped []) rest')
        else
          match Escape.ofLetter? e.char with
          | none => none
          | some (.char x) => gap.before [x] (quoted? quote .none rest')
          | some (.coded digits) =>
            match codedChar? digits rest' with
            | none => none
            | some x => gap.before [x] (quoted? quote .none (rest'.drop digits))
    else gap.before [c] (quoted? quote .none rest)
termination_by spots.length
decreasing_by all_goals (simp only [List.length_cons, List.length_drop]; omega)

end LoadProbe.Yaml
