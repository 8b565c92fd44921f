import LoadProbe.Yaml.Token

/-!
# From spots to tokens

The lexer walks over a row of spots and keeps the columns of the open block collections, so that
it can put in the tokens that indentation stands for. Whether a scalar or collection was a key is
known only when a colon follows it on its line, so the lexer also remembers at each level of
brackets where the last possible key began, and puts a `key` token in front of it afterwards.

`Lexer.step?` reads one token, and `tokens?` all of them.
-/

namespace LoadProbe.Yaml

/-- The place where a key may have begun. -/
structure PossibleKey where
  /-- It must turn out to be a key, since it stands where only keys may. -/
  required : Bool
  /-- How many tokens stand before it. -/
  index : Nat
  line : Nat
  column : Nat
  offset : Nat
deriving DecidableEq, Repr

/-- How many bytes behind its beginning the colon of a key may stand. -/
def PossibleKey.reach : Nat := 1024

/-- A colon at a spot comes too late for a key. -/
def PossibleKey.isStale (k : PossibleKey) (s : Spot) : Bool :=
  k.line != s.line || decide (k.offset + PossibleKey.reach < s.offset)

/-- What the lexer knows between two tokens. -/
structure Lexer where
  tokens : Array Token
  /-- The column of the innermost block collection, -1 outside of all. -/
  indent : Int
  /-- The columns of the block collections around it, inside out. -/
  around : List Int
  /-- The possible key at the innermost level of brackets. -/
  key? : Option PossibleKey
  /-- The possible keys at the levels around it, inside out. -/
  outerKeys : List (Option PossibleKey)
  /-- A key may begin here. -/
  keyAllowed : Bool

namespace Lexer

/-- The lexer at the start of a text. -/
def start : Lexer := ⟨#[], -1, [], none, [], true⟩

/-- Brackets are open. -/
def inFlow (l : Lexer) : Bool := !l.outerKeys.isEmpty

/-- The lexer after one more token; `keyAllowed` says whether a key may begin behind it. -/
def push (l : Lexer) (t : Token) (keyAllowed : Bool) : Lexer :=
  { l with tokens := l.tokens.push t, keyAllowed := keyAllowed }

/-- Gives up the possible key at this level, unless it had to be one. -/
def dropKey? (l : Lexer) : Option Lexer :=
  if l.key?.any PossibleKey.required then none else some { l with key? := none }

/-- Remembers that a key may begin at a spot. -/
def markKey? (l : Lexer) (s : Spot) : Option Lexer :=
  if l.keyAllowed then do
    let l ← l.dropKey?
    let required := !l.inFlow && l.indent = s.column
    return { l with key? := some ⟨required, l.tokens.size, s.line, s.column, s.offset⟩ }
  else some l

/-- The possible key, unless its colon would come too late at a spot. A key that had to be one
must not. -/
def refresh? (s : Spot) (key? : Option PossibleKey) : Option (Option PossibleKey) :=
  match key? with
  | some k => if !k.isStale s then some (some k) else if k.required then none else some none
  | none => some none

/-- Gives up the possible keys whose colon would come too late at a spot. -/
def dropStale? (l : Lexer) (s : Spot) : Option Lexer := do
  let key? ← refresh? s l.key?
  let outerKeys ← l.outerKeys.mapM (refresh? s)
  return { l with key? := key?, outerKeys := outerKeys }

/-- The block collections that stand further in than a column, by what is to be closed: how many
there are, and the innermost column and those around it afterwards. -/
def closing (column indent : Int) : List Int → Nat × Int × List Int
  | [] => (0, indent, [])
  | next :: around =>
    if indent ≤ column then (0, indent, next :: around)
    else
      let (n, indent, around) := closing column next around
      (n + 1, indent, around)

/-- Closes the block collections that stand further in than a column. Inside brackets indentation
means nothing. -/
def unroll (l : Lexer) (column : Int) : Lexer :=
  if l.inFlow then l
  else
    let (n, indent, around) := closing column l.indent l.around
    { l with
      tokens := l.tokens ++ Array.replicate n Token.blockEnd
      indent := indent
      around := around }

/-- Opens a block collection at a column, unless the innermost one stands there already. Its token
comes at the given index. -/
def roll (l : Lexer) (column index : Nat) (t : Token) : Lexer :=
  if l.inFlow || decide ((column : Int) ≤ l.indent) then l
  else
    { l with
      tokens := l.tokens.insertIdxIfInBounds index t
      indent := column
      around := l.indent :: l.around }

/-- A token that ends everything before it. -/
def boundary? (l : Lexer) (t : Token) : Option Lexer := do
  let l ← (l.unroll (-1)).dropKey?
  return l.push t false

/-- An opening bracket. -/
def openFlow? (l : Lexer) (s : Spot) (t : Token) : Option Lexer := do
  let l ← l.markKey? s
  return { l.push t true with key? := none, outerKeys := l.key? :: l.outerKeys }

/-- A closing bracket. -/
def closeFlow? (l : Lexer) (t : Token) : Option Lexer := do
  let l ← l.dropKey?
  let l := match l.outerKeys with
    | [] => l
    | key? :: outerKeys => { l with key? := key?, outerKeys := outerKeys }
  return l.push t false

/-- The hyphen of an entry, or the mark of a key that is not simple. `after` says whether a key
may begin behind it. -/
def opener? (l : Lexer) (s : Spot) (collection t : Token) (after : Bool) : Option Lexer := do
  if !l.inFlow && !l.keyAllowed then none
  else
    let l ← (l.roll s.column l.tokens.size collection).dropKey?
    return l.push t after

/-- The colon of a value. -/
def value? (l : Lexer) (s : Spot) : Option Lexer :=
  match l.key? with
  | some k =>
    let l := { l with tokens := l.tokens.insertIdxIfInBounds k.index .key, key? := none }
    some ((l.roll k.column k.index .blockMapping).push .value false)
  | none =>
    if !l.inFlow && !l.keyAllowed then none
    else some ((l.roll s.column l.tokens.size .blockMapping).push .value (!l.inFlow))

/-- A token at which a key may begin, and what follows it. -/
def keyStart? (l : Lexer) (s : Spot) (read : Option (Token × List Spot)) :
    Option (Lexer × List Spot) := do
  let l ← l.markKey? s
  let (t, rest) ← read
  return (l.push t false, rest)

/-- A plain scalar may begin with the first spot of a row. -/
def atPlain (flow : Bool) (s : Spot) (rest : List Spot) : Bool :=
  (!isBlank s.char && !atAny "-?:,[]\x7b\x7d#&*!|>'\"%@\x60" [s]) ||
    (s.char = '-' && !(rest.head?.any fun t => isBlank t.char)) ||
    (!flow && atAny "?:" [s] && !atGap rest)

/-- Reads the token that begins at a spot; no gap stands before it. -/
def token? (l : Lexer) (s : Spot) (rest : List Spot) : Option (Lexer × List Spot) :=
  let c := s.char
  let flow := l.inFlow
  let single (l? : Option Lexer) : Option (Lexer × List Spot) := l?.map fun l => (l, rest)
  let text (style : Style) (scalar : Option (List Char × List Spot)) :=
    scalar.map fun (cs, rest) => (Token.scalar (String.ofList cs) style, rest)
  if s.column = 0 && c = '%' then do
    let (t, rest) ← directive? rest
    return (← l.boundary? t, rest)
  else if atTriple '-' (s :: rest) then
    (l.boundary? .documentStart).map fun l => (l, rest.drop 2)
  else if atTriple '.' (s :: rest) then
    (l.boundary? .documentEnd).map fun l => (l, rest.drop 2)
  else if c = '[' then single (l.openFlow? s .flowSequence)
  else if c = '\x7b' then single (l.openFlow? s .flowMapping)
  else if c = ']' then single (l.closeFlow? .flowSequenceEnd)
  else if c = '\x7d' then single (l.closeFlow? .flowMappingEnd)
  else if c = ',' then single (l.dropKey?.map fun l => l.push .flowEntry true)
  else if c = '-' && atGap rest then single (l.opener? s .blockSequence .blockEntry true)
  else if c = '?' && (flow || atGap rest) then single (l.opener? s .blockMapping .key (!flow))
  else if c = ':' && (flow || atGap rest) then single (l.value? s)
  else if c = '*' then
    l.keyStart? s ((anchorName? rest).map fun (name, rest) => (.reference name, rest))
  else if c = '&' then
    l.keyStart? s ((anchorName? rest).map fun (name, rest) => (.anchor name, rest))
  else if c = '!' then l.keyStart? s (tag? flow (s :: rest))
  else if (c = '|' || c = '>') && !flow then do
    let style := if c = '|' then Style.literal else Style.folded
    let l ← l.dropKey?
    let (t, rest) ← text style (block? (c = '|') l.indent rest)
    return (l.push t true, rest)
  else if c = '\'' || c = '"' then l.keyStart? s (text .quoted (quoted? c .none rest))
  else if atPlain flow s rest then do
    let l ← l.markKey? s
    let p ← Plain.read flow (l.indent + 1) .none (s :: rest)
    return (l.push (.scalar (String.ofList p.text) .plain) p.crossed, p.rest)
  else none

/-- Skips the gap before a token: blanks, comments and line breaks. The result says whether a key
may begin behind it. Tabs are skipped only where no key may begin, or inside brackets. -/
def skipGap (flow : Bool) : (keyAllowed comment : Bool) → List Spot → Bool × List Spot
  | keyAllowed, _, [] => (keyAllowed, [])
  | keyAllowed, comment, s :: rest =>
    let c := s.char
    if isBreak c then skipGap flow (keyAllowed || !flow) false rest
    else if comment || c = ' ' || (c = '\t' && (flow || !keyAllowed)) ||
        (c = '\ufeff' && s.column = 0) then
      skipGap flow keyAllowed comment rest
    else if c = '#' then skipGap flow keyAllowed true rest
    else (keyAllowed, s :: rest)

/-- Reads one token that begins at a spot, after closing what its place closes. -/
def step? (l : Lexer) (s : Spot) (rest : List Spot) : Option (Lexer × List Spot) := do
  let l ← l.dropStale? s
  (l.unroll s.column).token? s rest

/-- Reads tokens until the end of the text. -/
def run? (l : Lexer) (spots : List Spot) : Option Lexer :=
  match skipGap l.inFlow l.keyAllowed false spots with
  | (_, []) => (l.unroll (-1)).dropKey?
  | (keyAllowed, s :: rest) =>
    match { l with keyAllowed := keyAllowed }.step? s rest with
    | none => none
    | some (l, next) =>
      -- every token holds a character
      if _h : next.length < spots.length then l.run? next else none
termination_by spots.length

end Lexer

/-- The tokens of a text. -/
def tokens? (text : String) : Option (List Token) := do
  let l ← Lexer.start.run? (← spots? text)
  return l.tokens.toList

end LoadProbe.Yaml
