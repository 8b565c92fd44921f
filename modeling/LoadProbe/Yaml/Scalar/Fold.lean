import LoadProbe.Yaml.Spot

/-!
# Folding

Between two words of a plain or quoted scalar stands a gap of blanks and line breaks. Blanks
within a line are kept. Where the gap spans lines, its blanks go, a single line break becomes a
space, and of several the first one goes.
-/

namespace LoadProbe.Yaml

/-- What stands between two words of a scalar. -/
inductive Gap where
  /-- Blanks on one line, or nothing. -/
  | within (blanks : List Char)
  /-- A line break, and the further ones. -/
  | across (first : Char) (more : List Char)
  /-- An escaped line break, and the further ones that are not escaped. -/
  | escaped (more : List Char)
deriving DecidableEq, Repr

namespace Gap

/-- Words that touch each other. -/
def none : Gap := within []

/-- The gap spans lines. -/
def isAcross : Gap → Bool
  | within _ => false
  | across _ _ => true
  | escaped _ => true

def isNone : Gap → Bool
  | within [] => true
  | _ => false

/-- The gap with one more blank. -/
def addBlank (c : Char) : Gap → Gap
  | within blanks => within (blanks ++ [c])
  | g => g

/-- The gap with one more line break. -/
def addBreak (c : Char) : Gap → Gap
  | within _ => across c []
  | across first more => across first (more ++ [c])
  | escaped more => escaped (more ++ [c])

/-- What the gap comes to in the text of the scalar. -/
def text : Gap → List Char
  | within blanks => blanks
  | across '\n' [] => [' ']
  | across '\n' more => more
  | across first more => first :: more
  | escaped more => more

end Gap

end LoadProbe.Yaml
