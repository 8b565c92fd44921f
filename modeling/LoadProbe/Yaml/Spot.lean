/-!
# Characters and their places

Where a character stands on its line decides much of what it means in YAML, so a text is read as a
row of `Spot`s, characters with their line, column and offset. Line breaks are made alike
beforehand: a carriage return, a carriage return with its line feed, and a next-line character
count as one line feed, while the separators of lines and of paragraphs stay what they are.
-/

namespace LoadProbe.Yaml

/-- A character with its line, its column and its offset, all counted from 0. The column counts the
characters before it on its line, the offset their bytes. -/
structure Spot where
  char : Char
  line : Nat
  column : Nat
  offset : Nat
deriving DecidableEq, Repr

/-- The characters that end a line, once breaks have been made alike. -/
def isBreak (c : Char) : Bool :=
  c = '\n' || c = '\u2028' || c = '\u2029'

/-- Spaces and tabs. -/
def isBlank (c : Char) : Bool :=
  c = ' ' || c = '\t'

/-- The characters of names: digits, Latin letters, low lines and hyphens. -/
def isWord (c : Char) : Bool :=
  c.isAlphanum || c = '_' || c = '-'

/-- Control characters other than tabs and line breaks, and the two code points that are never
characters, may not occur in a text. -/
def isAllowed (c : Char) : Bool :=
  let n := c.toNat
  c = '\t' || c = '\n' || c = '\r' || n = 0x85 || (0x20 ≤ n && n ≤ 0x7e) ||
    (0xa0 ≤ n && n != 0xfffe && n != 0xffff)

/-- Makes all line breaks but the separators alike. -/
def unifyBreaks : List Char → List Char
  | [] => []
  | '\r' :: '\n' :: rest => '\n' :: unifyBreaks rest
  | c :: rest => (if c = '\r' || c = '\u0085' then '\n' else c) :: unifyBreaks rest

/-- The characters of a text with their places, the first of which is at a given line, column and
offset. -/
def place (line column offset : Nat) : List Char → List Spot
  | [] => []
  | c :: rest =>
    ⟨c, line, column, offset⟩ ::
      if isBreak c then place (line + 1) 0 0 rest
      else place line (column + 1) (offset + c.utf8Size) rest

/-- The row of spots of a text, unless a character is in it that may not be. -/
def spots? (text : String) : Option (List Spot) :=
  let cs := text.toList
  if cs.all isAllowed then some (place 0 0 0 (unifyBreaks cs)) else none

/-- The characters of a row of spots. -/
def charsOf (spots : List Spot) : List Char :=
  spots.map Spot.char

/-- A blank, a line break or the end of the text follows. -/
def atGap : List Spot → Bool
  | [] => true
  | s :: _ => isBlank s.char || isBreak s.char

/-- One of these characters follows. -/
def atAny (marks : String) : List Spot → Bool
  | [] => false
  | s :: _ => marks.toList.contains s.char

/-- Three times a character stand at the start of a line, with a gap behind. -/
def atTriple (mark : Char) : List Spot → Bool
  | a :: b :: c :: rest =>
    a.column = 0 && a.char = mark && b.char = mark && c.char = mark && atGap rest
  | _ => false

/-- A mark between documents follows. -/
def atDocumentMark (spots : List Spot) : Bool :=
  atTriple '-' spots || atTriple '.' spots

/-- Skips blanks and a comment up to the end of the line, and the line break. Anything else on
the line is refused. -/
def endLine? (spots : List Spot) : Option (List Spot) :=
  let rest := spots.dropWhile fun s => isBlank s.char
  let rest := if atAny "#" rest then rest.dropWhile fun s => !isBreak s.char else rest
  match rest with
  | [] => some []
  | s :: rest => if isBreak s.char then some rest else none

end LoadProbe.Yaml
