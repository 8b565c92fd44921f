import LoadProbe.Yaml.Scalar.Fold

/-!
# Plain scalars

A scalar without quotes runs on until something stands there that cannot belong to it: a colon
before a gap, a comment, a line with too little indentation, a mark between documents, or inside
brackets one of their indicators.
-/

namespace LoadProbe.Yaml

/-- A plain scalar, and where it ended. -/
structure Plain where
  text : List Char
  /-- Its end is on a line after its last word. -/
  crossed : Bool
  rest : List Spot

/-- The characters that end a plain scalar inside brackets. -/
def flowIndicators : String := ",[]\x7b\x7d"

/-- A plain scalar from a gap of it on. `flow` says that it stands inside brackets, `least` is the
least column that its later lines may start at. -/
def Plain.read (flow : Bool) (least : Int) (gap : Gap) : List Spot → Option Plain
  | [] => some ⟨[], gap.isAcross, []⟩
  | s :: rest =>
    let c := s.char
    let here : Plain := ⟨[], gap.isAcross, s :: rest⟩
    if isBlank c then
      if gap.isAcross && c = '\t' && decide (s.column < least) then none
      else Plain.read flow least (gap.addBlank c) rest
    else if isBreak c then Plain.read flow least (gap.addBreak c) rest
    else if !gap.isNone &&
        ((!flow && decide (s.column < least)) || c = '#' || atDocumentMark (s :: rest)) then
      some here
    else if flow && c = ':' && atAny (flowIndicators ++ "?") rest then none
    else if (c = ':' && atGap rest) || (flow && atAny flowIndicators [s]) then some here
    else do
      let p ← Plain.read flow least .none rest
      return { p with text := gap.text ++ c :: p.text }

end LoadProbe.Yaml
