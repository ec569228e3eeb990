import DomainModels.Unicode.Casing
import DomainModels.Unicode.Script

/-!
Sets of characters, as patterns describe them.
-/

namespace DomainModels.Pattern

open Unicode

/-- Properties of characters that patterns can name. -/
inductive CharProperty where
  | decimalDigit
  | space
  | word
  | categories (members : List Category)
  | script (code : String)
  | alphabetic
  | lowercase
  | uppercase

def CharProperty.holds : CharProperty → Char → Bool
  | .decimalDigit, c => isDecimalDigit c
  | .space, c => isSpace c
  | .word, c => isWord c
  | .categories members, c => members.contains (category c)
  | .script code, c => Unicode.script c = code
  | .alphabetic, c => isAlphabetic c
  | .lowercase, c => isLowercase c
  | .uppercase, c => isUppercase c

/-- A set of characters. -/
inductive CharSet where
  | none
  | any
  | range (first last : Char)
  | property (p : CharProperty)
  | negate (s : CharSet)
  | union (s t : CharSet)
  | inter (s t : CharSet)
  | diff (s t : CharSet)
  | symmDiff (s t : CharSet)
  /-- Everything that differs from a member only in its case. -/
  | folded (s : CharSet)

namespace CharSet

def single (c : Char) : CharSet := .range c c

def contains : CharSet → Char → Bool
  | none, _ => false
  | any, _ => true
  | range first last, c => first ≤ c && c ≤ last
  | property p, c => p.holds c
  | negate s, c => !s.contains c
  | union s t, c => s.contains c || t.contains c
  | inter s t, c => s.contains c && t.contains c
  | diff s t, c => s.contains c && !t.contains c
  | symmDiff s t, c => s.contains c != t.contains c
  | folded s, c => (foldClass c).any fun d => s.contains d

/-- The union of several sets. -/
def ofList (sets : List CharSet) : CharSet := sets.foldl union none

/-- ASCII ranges, given by their first and last characters. -/
def ofRanges (ranges : List (Char × Char)) : CharSet :=
  ofList (ranges.map fun (first, last) => range first last)

end CharSet

/-! ## Named sets -/

/-- The ASCII classes that a bracket may name. -/
def asciiClass? : String → Option CharSet
  | "alnum" => some (.ofRanges [('0', '9'), ('A', 'Z'), ('a', 'z')])
  | "alpha" => some (.ofRanges [('A', 'Z'), ('a', 'z')])
  | "ascii" => some (.range '\x00' '\x7f')
  | "blank" => some (.ofRanges [('\t', '\t'), (' ', ' ')])
  | "cntrl" => some (.ofRanges [('\x00', '\x1f'), ('\x7f', '\x7f')])
  | "digit" => some (.range '0' '9')
  | "graph" => some (.range '!' '~')
  | "lower" => some (.range 'a' 'z')
  | "print" => some (.range ' ' '~')
  | "punct" => some (.ofRanges [('!', '/'), (':', '@'), ('[', '\x60'), ('\x7b', '~')])
  | "space" => some (.ofRanges [('\t', '\r'), (' ', ' ')])
  | "upper" => some (.range 'A' 'Z')
  | "word" => some (.ofRanges [('0', '9'), ('A', 'Z'), ('_', '_'), ('a', 'z')])
  | "xdigit" => some (.ofRanges [('0', '9'), ('A', 'F'), ('a', 'f')])
  | _ => none

/-- Groups of general categories and their names, in lower case and without separators. -/
def categoryGroups : List (List String × List Category) :=
  [(["l", "letter"], [.lu, .ll, .lt, .lm, .lo]), (["lc", "casedletter"], [.lu, .ll, .lt]),
   (["lu", "uppercaseletter"], [.lu]), (["ll", "lowercaseletter"], [.ll]),
   (["lt", "titlecaseletter"], [.lt]), (["lm", "modifierletter"], [.lm]),
   (["lo", "otherletter"], [.lo]), (["m", "mark", "combiningmark"], [.mn, .mc, .me]),
   (["mn", "nonspacingmark"], [.mn]), (["mc", "spacingmark"], [.mc]),
   (["me", "enclosingmark"], [.me]), (["n", "number"], [.nd, .nl, .no]),
   (["nd", "decimalnumber", "digit"], [.nd]), (["nl", "letternumber"], [.nl]),
   (["no", "othernumber"], [.no]),
   (["p", "punctuation", "punct"], [.pc, .pd, .ps, .pe, .pi, .pf, .po]),
   (["pc", "connectorpunctuation"], [.pc]), (["pd", "dashpunctuation"], [.pd]),
   (["ps", "openpunctuation"], [.ps]), (["pe", "closepunctuation"], [.pe]),
   (["pi", "initialpunctuation"], [.pi]), (["pf", "finalpunctuation"], [.pf]),
   (["po", "otherpunctuation"], [.po]), (["s", "symbol"], [.sm, .sc, .sk, .so]),
   (["sm", "mathsymbol"], [.sm]), (["sc", "currencysymbol"], [.sc]),
   (["sk", "modifiersymbol"], [.sk]), (["so", "othersymbol"], [.so]),
   (["z", "separator"], [.zs, .zl, .zp]), (["zs", "spaceseparator"], [.zs]),
   (["zl", "lineseparator"], [.zl]), (["zp", "paragraphseparator"], [.zp]),
   (["c", "other"], [.cc, .cf, .cs, .co, .cn]), (["cc", "control", "cntrl"], [.cc]),
   (["cf", "format"], [.cf]), (["cs", "surrogate"], [.cs]), (["co", "privateuse"], [.co]),
   (["cn", "unassigned"], [.cn])]

/-- Names of properties are compared in lower case, without blanks, underscores and hyphens, and
without a leading "is". -/
def normalizeName (name : String) : String :=
  let plain := (name.toList.filter fun c => !(isSpace c || c = '_' || c = '-')).map Char.toLower
  match plain with
  | 'i' :: 's' :: rest => if rest = ['c'] then "isc" else String.ofList rest
  | _ => String.ofList plain

/-- A general category or a group of them. -/
def categorySet? (name : String) : Option CharSet :=
  if name = "any" then some .any
  else if name = "assigned" then some (.negate (.property (.categories [.cn])))
  else if name = "ascii" then some (.range '\x00' '\x7f')
  else (categoryGroups.find? (·.1.contains name)).map fun group =>
    .property (.categories group.2)

/-- A script, by its name or its code. -/
def scriptSet? (name : String) : Option CharSet :=
  (scriptNames.find? fun (long, code) => normalizeName long = name || normalizeName code = name).map
    fun (_, code) => .property (.script code)

/-- A property that a character has or has not. -/
def binarySet? (name : String) : Option CharSet :=
  if name = "alphabetic" || name = "alpha" then some (.property .alphabetic)
  else if name = "lowercase" || name = "lower" then some (.property .lowercase)
  else if name = "uppercase" || name = "upper" then some (.property .uppercase)
  else if name = "whitespace" || name = "wspace" || name = "space" then some (.property .space)
  else if name = "asciihexdigit" || name = "ahex" then asciiClass? "xdigit"
  else none

/-- A set named by one word. -/
def namedSet? (name : String) : Option CharSet :=
  let name := normalizeName name
  (binarySet? name).or ((categorySet? name).or (scriptSet? name))

/-- A set named by a property and its value. -/
def valueSet? (property value : String) : Option CharSet :=
  let property := normalizeName property
  let value := normalizeName value
  if property = "gc" || property = "generalcategory" then categorySet? value
  else if property = "sc" || property = "script" then scriptSet? value
  else none

end DomainModels.Pattern
