import DomainModels.Text.Shown
import DomainModels.Text.Split

/-!
Semantic versions: three numbers, a pre-release and build metadata.
-/

namespace DomainModels

/-- A semantic version. The pre-release and the build metadata are texts of identifiers that are
joined by points, and are empty when the version has none. -/
structure Version where
  major : Nat
  minor : Nat
  patch : Nat
  preRelease : String
  build : String
  deriving DecidableEq, Repr

namespace Version

/-- The parts of a version text, named in faults. -/
inductive Part where
  | major
  | minor
  | patch
  | preRelease
  | build
  deriving DecidableEq, Repr

/-- Why a text is not a version. -/
inductive Fault where
  | empty
  | unexpectedChar (part : Part) (c : Char)
  | unexpectedCharAfter (part : Part) (c : Char)
  | unexpectedEnd (part : Part)
  | leadingZero (part : Part)
  | tooLarge (part : Part)
  | emptySegment (part : Part)
  deriving DecidableEq, Repr

def Part.label : Part → String
  | .major => "major version number"
  | .minor => "minor version number"
  | .patch => "patch version number"
  | .preRelease => "pre-release identifier"
  | .build => "build metadata"

def Fault.message : Fault → String
  | .empty => "empty string, expected a semver version"
  | .unexpectedChar part c =>
    "unexpected character " ++ Text.quoteChar c ++ " while parsing " ++ part.label
  | .unexpectedCharAfter part c =>
    "unexpected character " ++ Text.quoteChar c ++ " after " ++ part.label
  | .unexpectedEnd part => "unexpected end of input while parsing " ++ part.label
  | .leadingZero part => "invalid leading zero in " ++ part.label
  | .tooLarge part => "value of " ++ part.label ++ " exceeds u64::MAX"
  | .emptySegment part => "empty identifier segment in " ++ part.label

/-- The text of a version. -/
def render (v : Version) : String :=
  let core := toString v.major ++ "." ++ toString v.minor ++ "." ++ toString v.patch
  let pre := if v.preRelease = "" then "" else "-" ++ v.preRelease
  let build := if v.build = "" then "" else "+" ++ v.build
  core ++ pre ++ build

/-- Version numbers are below this bound. -/
def numberBound : Nat := UInt64.size

/-- Continues a number whose digits so far have the given value. No digit may follow a leading
zero. -/
def readDigits (part : Part) (value : Nat) : List Char → Except Fault (Nat × List Char)
  | [] => .ok (value, [])
  | c :: rest =>
    if c.isDigit then
      if value = 0 then .error (.leadingZero part)
      else
        let next := value * 10 + (c.toNat - '0'.toNat)
        if next < numberBound then readDigits part next rest else .error (.tooLarge part)
    else .ok (value, c :: rest)

/-- A number of at least one digit. -/
def readNumber (part : Part) : List Char → Except Fault (Nat × List Char)
  | [] => .error (.unexpectedEnd part)
  | c :: rest =>
    if c.isDigit then readDigits part (c.toNat - '0'.toNat) rest
    else .error (.unexpectedChar part c)

/-- The point after a number. -/
def readPoint (part : Part) : List Char → Except Fault (List Char)
  | [] => .error (.unexpectedEnd part)
  | c :: rest => if c = '.' then .ok rest else .error (.unexpectedCharAfter part c)

/-- Characters of identifiers other than the digits. -/
def isIdentifierLetter (c : Char) : Bool :=
  ('A' ≤ c && c ≤ 'Z') || ('a' ≤ c && c ≤ 'z') || c = '-'

/-- Characters of the identifiers in pre-releases and build metadata. -/
def isIdentifierChar (c : Char) : Bool := isIdentifierLetter c || c.isDigit

/-- A number in a pre-release that has a digit after a leading zero. -/
def isPaddedNumber (segment : List Char) : Bool :=
  segment.all Char.isDigit && 1 < segment.length && segment.head? = some '0'

/-- Whether a segment may stand in the given part. -/
def checkSegment (part : Part) (segment : List Char) : Except Fault Unit :=
  if segment.isEmpty then .error (.emptySegment part)
  else if part = .preRelease ∧ isPaddedNumber segment then .error (.leadingZero part)
  else .ok ()

/-- Identifiers joined by points: the longest run of identifier characters and points, where each
segment has to be allowed. -/
def readIdentifiers (part : Part) (cs : List Char) : Except Fault (String × List Char) :=
  let inside (c : Char) := isIdentifierChar c || c = '.'
  let text := cs.takeWhile inside
  match (Text.cutAll '.' text).forM (checkSegment part) with
  | .error fault => .error fault
  | .ok () => .ok (String.ofList text, cs.dropWhile inside)

/-- The build metadata and the end of a version. -/
def readBuild (v : Version) (part : Part) (cs : List Char) : Except Fault Version := do
  let (v, part, cs) ← match cs with
    | '+' :: rest => do
      let (build, rest) ← readIdentifiers .build rest
      pure ({ v with build }, Part.build, rest)
    | _ => pure (v, part, cs)
  match cs with
  | [] => .ok v
  | c :: _ => .error (.unexpectedCharAfter part c)

/-- Reads a version text. -/
def parse (text : String) : Except Fault Version := do
  if text = "" then .error .empty
  else
    let (major, rest) ← readNumber .major text.toList
    let rest ← readPoint .major rest
    let (minor, rest) ← readNumber .minor rest
    let rest ← readPoint .minor rest
    let (patch, rest) ← readNumber .patch rest
    let v : Version := ⟨major, minor, patch, "", ""⟩
    match rest with
    | '-' :: rest => do
      let (preRelease, rest) ← readIdentifiers .preRelease rest
      readBuild { v with preRelease } .preRelease rest
    | _ => readBuild v .patch rest

end Version

end DomainModels
