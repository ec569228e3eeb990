import DomainModels.DateTime.Basic
import DomainModels.Text.Digits
import DomainModels.Unicode.Category

/-!
Reading date-times.

The strict form has a four-digit year, two-digit fields, an optional fraction, and `Z` or an
offset. The lenient form also takes a date and a time without an offset, and a date alone, which
are read at a given offset.
-/

namespace DomainModels.DateTime

/-- What a reading step takes: its value and the text left. -/
abbrev Scan (α : Type) := List Char → Option (α × List Char)

/-- The digits at the start of a text, at most `max` of them. -/
def leadingDigits : Nat → List Char → List Char
  | 0, _ => []
  | _, [] => []
  | max + 1, c :: rest => if c.isDigit then c :: leadingDigits max rest else []

/-- A number of at least `min` and at most `max` digits. -/
def scanNumber (min max : Nat) : Scan Nat := fun cs =>
  let digits := leadingDigits max cs
  if digits.length < min then none else some (Text.numeral 10 digits, cs.drop digits.length)

/-- One given character. -/
def scanChar (c : Char) : Scan Unit
  | d :: rest => if d = c then some ((), rest) else none
  | [] => none

/-- A fraction after its point, in nanoseconds. Digits after the ninth are passed over. -/
def scanNanos : Scan Nat := fun cs => do
  let digits := leadingDigits 9 cs
  if digits.isEmpty then none
  else
    let value := Text.numeral 10 digits * Nat.pow 10 (9 - digits.length)
    some (value, (cs.drop digits.length).dropWhile Char.isDigit)

/-- An optional fraction with its point. -/
def scanFraction : Scan Nat
  | '.' :: rest => scanNanos rest
  | cs => some (0, cs)

/-- An offset of hours and minutes below a day, in seconds, or `Z` in either case. -/
def scanOffset : Scan Int := fun cs =>
  let signed (sign : Int) (cs : List Char) : Option (Int × List Char) := do
    let (hours, cs) ← scanNumber 2 2 cs
    let (_, cs) ← scanChar ':' cs
    let (minutes, cs) ← scanNumber 2 2 cs
    if hours < 24 ∧ minutes < 60 then
      some (sign * ((hours : Int) * 3600 + (minutes : Int) * 60), cs)
    else none
  match cs with
  | 'Z' :: rest | 'z' :: rest => some (0, rest)
  | '+' :: rest => signed 1 rest
  | '-' :: rest | '\u2212' :: rest => signed (-1) rest
  | _ => none

/-- Whether the fields make a date and a time of day. -/
def isValidLocal (l : LocalTime) : Bool :=
  Calendar.isValid l.date && minYear ≤ l.date.year && l.date.year ≤ maxYear && l.hour < 24 &&
    l.minute < 60 && l.second ≤ 60

/-- A local time whose fields exist. -/
def checkLocal? (l : LocalTime) : Option LocalTime := if isValidLocal l then some l else none

/-- A date-time with an offset. The date and the time are separated by a `T` of either case or by a
space. -/
def parseQualified? (text : String) : Option DateTime := do
  let (year, cs) ← scanNumber 4 4 text.toList
  let (_, cs) ← scanChar '-' cs
  let (month, cs) ← scanNumber 2 2 cs
  let (_, cs) ← scanChar '-' cs
  let (day, cs) ← scanNumber 2 2 cs
  let cs ← match cs with
    | 'T' :: rest | 't' :: rest | ' ' :: rest => some rest
    | _ => none
  let (hour, cs) ← scanNumber 2 2 cs
  let (_, cs) ← scanChar ':' cs
  let (minute, cs) ← scanNumber 2 2 cs
  let (_, cs) ← scanChar ':' cs
  let (second, cs) ← scanNumber 2 2 cs
  let (nanos, cs) ← scanFraction cs
  let (offset, cs) ← scanOffset cs
  if cs.isEmpty then
    let l ← checkLocal? ⟨⟨year, month, day⟩, hour, minute, second, nanos⟩
    ofLocal? l offset
  else none

/-- Whether a text begins with a separator `T` in the right place and ends in `Z` or in an ASCII
sign with hours and minutes. With `parseQualified?` this leaves the strict form. -/
def isStrictForm (text : String) : Bool :=
  let cs := text.toList
  cs[10]? = some 'T' &&
    match cs.reverse with
    | 'Z' :: _ => true
    | _ :: _ :: ':' :: _ :: _ :: sign :: _ => sign = '+' || sign = '-'
    | _ => false

/-! ## The lenient form -/

/-- A field of at most two digits, with blanks before it. -/
def scanField : Scan Nat := fun cs => scanNumber 1 2 (cs.dropWhile Unicode.isSpace)

/-- A year of at most four digits, or of any number of digits after a sign, with blanks before
it. -/
def scanYear : Scan Int := fun cs =>
  match cs.dropWhile Unicode.isSpace with
  | '-' :: rest => (scanNumber 1 rest.length rest).map fun (n, left) => (-(n : Int), left)
  | '+' :: rest => (scanNumber 1 rest.length rest).map fun (n, left) => ((n : Int), left)
  | cs => (scanNumber 1 4 cs).map fun (n, left) => ((n : Int), left)

/-- Year, month and day with hyphens between them. -/
def scanDate : Scan CivilDate := fun cs => do
  let (year, cs) ← scanYear cs
  let (_, cs) ← scanChar '-' cs
  let (month, cs) ← scanField cs
  let (_, cs) ← scanChar '-' cs
  let (day, cs) ← scanField cs
  some (⟨year, month, day⟩, cs)

/-- What stands between a date and a time: a `T`, or blanks. -/
def scanSeparator (blank : Bool) : Scan Unit := fun cs =>
  if blank then some ((), cs.dropWhile Unicode.isSpace) else scanChar 'T' cs

/-- A date and a time to the second with an optional fraction, or to the minute. -/
def parseLocal? (blank toSecond : Bool) (text : String) : Option LocalTime := do
  let (date, cs) ← scanDate text.toList
  let (_, cs) ← scanSeparator blank cs
  let (hour, cs) ← scanField cs
  let (_, cs) ← scanChar ':' cs
  let (minute, cs) ← scanField cs
  let (second, nanos, cs) ←
    if toSecond then do
      let (_, cs) ← scanChar ':' cs
      let (second, cs) ← scanField cs
      let (nanos, cs) ← scanFraction cs
      some (second, nanos, cs)
    else some (0, 0, cs)
  if cs.isEmpty then checkLocal? ⟨date, hour, minute, second, nanos⟩ else none

/-- A date alone stands for its midnight. -/
def parseDate? (text : String) : Option LocalTime := do
  let (date, cs) ← scanDate text.toList
  if cs.isEmpty then checkLocal? ⟨date, 0, 0, 0, 0⟩ else none

/-- The local forms in the order in which they are tried. -/
def parseAnyLocal? (text : String) : Option LocalTime :=
  (parseLocal? false true text).or <| (parseLocal? true true text).or <|
    (parseLocal? false false text).or <| (parseLocal? true false text).or (parseDate? text)

/-- Reads a date-time. Local forms are read at `defaultOffset` minutes east of UTC and are refused
when `strict` is set. -/
def parse? (text : String) (strict : Bool) (defaultOffset : Int) : Option DateTime :=
  if strict then
    if isStrictForm text then parseQualified? text else none
  else
    (parseQualified? text).or <|
      (parseAnyLocal? text).bind (ofLocal? · (effectiveOffset defaultOffset))

end DomainModels.DateTime
