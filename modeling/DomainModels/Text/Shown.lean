import DomainModels.Unicode.Category

/-!
Texts and characters as messages show them: in quotes, with escapes for what cannot be seen.
-/

namespace DomainModels.Text

/-- Characters that are shown as themselves: no controls, unassigned characters, combining marks
or blanks other than the space. -/
def isShown (c : Char) : Bool :=
  match Unicode.category c with
  | .cc | .cf | .cs | .co | .cn | .zl | .zp | .mn | .me => false
  | .zs => c = ' '
  | _ => true

/-- A character between quotes of the given kind. -/
def showChar (quote c : Char) : String :=
  if c = '\x00' then "\\0"
  else if c = '\t' then "\\t"
  else if c = '\n' then "\\n"
  else if c = '\r' then "\\r"
  else if c = '\\' then "\\\\"
  else if c = quote then "\\" ++ String.singleton quote
  else if isShown c then String.singleton c
  else "\\u\x7b" ++ String.ofList (Nat.toDigits 16 c.toNat) ++ "\x7d"

/-- A character in single quotes. -/
def quoteChar (c : Char) : String := "'" ++ showChar '\'' c ++ "'"

/-- A text in double quotes. -/
def quote (s : String) : String :=
  s.toList.foldl (fun text c => text ++ showChar '"' c) "\"" ++ "\""

end DomainModels.Text
