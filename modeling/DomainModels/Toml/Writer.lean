import DomainModels.Json.Basic
import DomainModels.Text.Digits

/-!
Writing settings as TOML.

Texts are written between quotes of the kind that needs the fewest escapes, and arrays of two and
more items have each item on a line of its own.
-/

namespace DomainModels.Toml

/-- What is written after an equals sign. -/
inductive Entry where
  | text (value : String)
  | flag (value : Bool)
  | integer (value : Int)
  | texts (values : List String)

/-- The length of the longest run of a character. -/
def longestRun (c : Char) (cs : List Char) : Nat :=
  (cs.foldl (fun (longest, current) d =>
    if d = c then (max longest (current + 1), current + 1) else (longest, 0)) (0, 0)).1

/-- The controls that no quotes can hold without an escape. -/
def needsEscape (c : Char) : Bool := (c < ' ' && c ≠ '\t' && c ≠ '\n') || c = '\x7f'

/-- How texts are quoted. -/
inductive Quotes where
  | basic
  | literal
  | basicLines
  | literalLines
  deriving DecidableEq, Repr

/-- The quotes of a text: the plainest ones in which it needs no escape, if there are any. -/
def Quotes.of (cs : List Char) : Quotes :=
  let escapes := cs.any needsEscape
  let hasLine := cs.contains '\n'
  let hasBackslash := cs.contains '\\'
  if escapes then if hasLine then .basicLines else .basic
  else if !hasBackslash && !cs.contains '"' && !hasLine then .basic
  else if !cs.contains '\'' && !hasLine then .literal
  else if !hasBackslash && longestRun '"' cs ≤ 2 then .basicLines
  else if longestRun '\'' cs ≤ 2 then .literalLines
  else if hasLine then .basicLines
  else .basic

/-- A character between basic quotes. -/
def escapeChar (lines : Bool) (c : Char) : List Char :=
  if c = '\x08' then ['\\', 'b']
  else if c = '\t' then ['\\', 't']
  else if c = '\n' then if lines then ['\n'] else ['\\', 'n']
  else if c = '\x0c' then ['\\', 'f']
  else if c = '\r' then ['\\', 'r']
  else if c = '\\' then ['\\', '\\']
  else if c < ' ' || c = '\x7f' then
    ['\\', 'u', '0', '0', Text.upperHexDigit (c.toNat / 16), Text.upperHexDigit (c.toNat % 16)]
  else [c]

/-- The characters between basic quotes. Of more quotes in a row than `allowed`, the next one is
escaped. -/
def escape (lines : Bool) (allowed : Nat) : Nat → List Char → List Char
  | _, [] => []
  | run, c :: rest =>
    if c = '"' then
      if run < allowed then '"' :: escape lines allowed (run + 1) rest
      else '\\' :: '"' :: escape lines allowed 0 rest
    else escapeChar lines c ++ escape lines allowed 0 rest

/-- A quoted text. After opening quotes that can span lines, a first line end is not part of the
text, so that one is put there if the text has several lines. -/
def quote (text : String) : String :=
  let cs := text.toList
  let start := if cs.contains '\n' then ['\n'] else []
  String.ofList <| match Quotes.of cs with
    | .basic => ['"'] ++ escape false 0 0 cs ++ ['"']
    | .literal => ['\''] ++ cs ++ ['\'']
    | .basicLines => ['"', '"', '"'] ++ start ++ escape true 2 0 cs ++ ['"', '"', '"']
    | .literalLines => ['\'', '\'', '\''] ++ start ++ cs ++ ['\'', '\'', '\'']

def Entry.render : Entry → String
  | .text value => quote value
  | .flag value => if value then "true" else "false"
  | .integer value => toString value
  | .texts [] => "[]"
  | .texts [value] => "[" ++ quote value ++ "]"
  | .texts values => "[\n" ++ String.join (values.map fun v => "    " ++ quote v ++ ",\n") ++ "]"

/-- A table with its header. -/
def renderTable (name : String) (entries : List (String × Entry)) : String :=
  "[" ++ name ++ "]\n" ++ String.join (entries.map fun (key, e) => key ++ " = " ++ e.render ++ "\n")

/-- An entry as a JSON tree. -/
def Entry.toJson : Entry → Json
  | .text value => .string value
  | .flag value => .bool value
  | .integer value => .int value
  | .texts values => .array (values.map .string)

/-- Tables with an empty line between them. -/
def render (tables : List (String × List (String × Entry))) : String :=
  "\n".intercalate (tables.map fun (name, entries) => renderTable name entries)

end DomainModels.Toml
