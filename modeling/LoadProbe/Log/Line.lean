import LoadProbe.Log.Filter

/-!
# Log lines

How a notice is shown to a reader. The characters of its wording that could steer a terminal are
written out, so that no text from outside can do so.
-/

namespace LoadProbe.Log

/-- A character of a log line: one that could steer a terminal is written as an escape. -/
def shownChar (c : Char) : List Char :=
  let code := (Nat.toDigits 16 c.toNat)
  if c = '\x1b' || c = '\x7f' then '\\' :: 'x' :: code
  else if c = '\x07' || c = '\x08' || c = '\x0c' then '\\' :: 'x' :: '0' :: code
  else if 0x80 ≤ c.toNat && c.toNat ≤ 0x9f then "\\u\x7b".toList ++ code ++ ['\x7d']
  else [c]

/-- A text with the characters that could steer a terminal written out. -/
def shown (text : String) : String :=
  String.ofList (text.toList.flatMap shownChar)

/-- A notice as a reader sees it, without its source. -/
def line (n : Notice) : String :=
  n.level.text ++ " " ++ shown n.text

/-- A notice as a reader sees it. -/
def fullLine (n : Notice) : String :=
  n.level.text ++ " " ++ n.source ++ ": " ++ shown n.text

end LoadProbe.Log
