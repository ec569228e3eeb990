import DomainModels.Decimal.Layout
import DomainModels.Json.Basic
import DomainModels.Text.Digits

/-!
The compact text of a JSON tree: no blanks, members in their order, shortest numbers.
-/

namespace DomainModels.Json

/-- A character inside a quoted text. Quotes, backslashes and control characters are escaped, and
everything else stands for itself. -/
def escapeChar (c : Char) : String :=
  if c = '"' then "\\\""
  else if c = '\\' then "\\\\"
  else if c = '\n' then "\\n"
  else if c = '\r' then "\\r"
  else if c = '\t' then "\\t"
  else if c = '\x08' then "\\b"
  else if c = '\x0c' then "\\f"
  else if c.toNat < 0x20 then
    "\\u00" ++ String.ofList [Text.lowerHexDigit (c.toNat / 16), Text.lowerHexDigit (c.toNat % 16)]
  else String.singleton c

/-- A quoted text. -/
def quote (s : String) : String :=
  s.toList.foldl (fun text c => text ++ escapeChar c) "\"" ++ "\""

/-- The text of a number. Texts have no numbers that are not finite, so null stands for these. -/
def numberText : Number → String
  | .int i => toString i
  | .float x => if x.isFinite then DoubleFormat.wire.render x else "null"

mutual

/-- The compact text of a tree. -/
def compact : Json → String
  | .null => "null"
  | .bool true => "true"
  | .bool false => "false"
  | .number n => numberText n
  | .string s => quote s
  | .array items => "[" ++ ",".intercalate (compactItems items) ++ "]"
  | .object members => "\x7b" ++ ",".intercalate (compactMembers members) ++ "\x7d"

def compactItems : List Json → List String
  | [] => []
  | item :: rest => compact item :: compactItems rest

def compactMembers : List (String × Json) → List String
  | [] => []
  | (name, value) :: rest => (quote name ++ ":" ++ compact value) :: compactMembers rest

end

end DomainModels.Json
