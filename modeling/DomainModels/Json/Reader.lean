import DomainModels.Json.Basic
import DomainModels.Text.Digits

/-!
Reading a JSON text.

The reader works on the characters that are left. A fault remembers where it was noticed as the
text that was left there and a number of bytes into that text, so that a place can lie inside a
character. The line and the column (in bytes) are counted once, at the end.
-/

namespace DomainModels.Json

/-- Why a text is not JSON. -/
inductive SyntaxCause where
  | endInList
  | endInObject
  | endInString
  | endInValue
  | expectedColon
  | expectedListEnd
  | expectedObjectEnd
  | expectedIdent
  | expectedValue
  | invalidEscape
  | invalidNumber
  | numberOutOfRange
  | controlCharacter
  | keyNotString
  | loneSurrogate
  | unfinishedSurrogate
  | trailingComma
  | trailingCharacters
  | nestingTooDeep
  deriving DecidableEq, Repr

/-- A cause with its place: one-based line, and column in bytes. -/
structure SyntaxFault where
  cause : SyntaxCause
  line : Nat
  column : Nat
  deriving DecidableEq, Repr

def SyntaxCause.message : SyntaxCause → String
  | .endInList => "EOF while parsing a list"
  | .endInObject => "EOF while parsing an object"
  | .endInString => "EOF while parsing a string"
  | .endInValue => "EOF while parsing a value"
  | .expectedColon => "expected `:`"
  | .expectedListEnd => "expected `,` or `]`"
  | .expectedObjectEnd => "expected `,` or `\x7d`"
  | .expectedIdent => "expected ident"
  | .expectedValue => "expected value"
  | .invalidEscape => "invalid escape"
  | .invalidNumber => "invalid number"
  | .numberOutOfRange => "number out of range"
  | .controlCharacter => "control character (\\u0000-\\u001F) found while parsing a string"
  | .keyNotString => "key must be a string"
  | .loneSurrogate => "lone leading surrogate in hex escape"
  | .unfinishedSurrogate => "unexpected end of hex escape"
  | .trailingComma => "trailing comma"
  | .trailingCharacters => "trailing characters"
  | .nestingTooDeep => "recursion limit exceeded"

def SyntaxFault.message (f : SyntaxFault) : String :=
  s!"{f.cause.message} at line {f.line} column {f.column}"

namespace Reader

/-- A cause with its place, which is `ahead` bytes into the text that was left. -/
structure Stop where
  cause : SyntaxCause
  left : List Char
  ahead : Nat

/-- What a reading step takes: its value and the text left after it. -/
abbrev Taken (α : Type) := α × List Char

/-- A fault at the next byte. -/
def failNext {α : Type} (cause : SyntaxCause) (left : List Char) : Except Stop α :=
  .error ⟨cause, left, 1⟩

/-- A fault at the byte just read. -/
def failHere {α : Type} (cause : SyntaxCause) (left : List Char) : Except Stop α :=
  .error ⟨cause, left, 0⟩

def isBlank (c : Char) : Bool := c = ' ' || c = '\n' || c = '\t' || c = '\r'

def skipBlank (cs : List Char) : List Char := cs.dropWhile isBlank

/-! ## Strings -/

/-- Four hexadecimal digits. Fewer than four bytes are the end of the text. -/
def readHex4 (cs : List Char) : Except Stop (Taken Nat) :=
  let digits := cs.take 4
  if (String.ofList digits).utf8ByteSize < 4 then failHere .endInString []
  else if digits.all Text.isHexDigit then .ok (Text.numeral 16 digits, cs.drop 4)
  else .error ⟨.invalidEscape, cs, 4⟩

/-- The rest of a `\u` escape. A leading surrogate takes its partner from a second escape. -/
def readUnicodeEscape (cs : List Char) : Except Stop (Taken Char) := do
  let (n, rest) ← readHex4 cs
  if 0xDC00 ≤ n ∧ n ≤ 0xDFFF then failHere .loneSurrogate rest
  else if n < 0xD800 ∨ 0xDBFF < n then .ok (Char.ofNat n, rest)
  else
    match rest with
    | [] => failHere .endInString []
    | '\\' :: [] => failHere .endInString []
    | '\\' :: 'u' :: rest =>
      let (low, rest) ← readHex4 rest
      if low < 0xDC00 ∨ 0xDFFF < low then failHere .loneSurrogate rest
      else .ok (Char.ofNat ((n - 0xD800) * 0x400 + (low - 0xDC00) + 0x10000), rest)
    | '\\' :: rest => failNext .unfinishedSurrogate rest
    | rest => failNext .unfinishedSurrogate rest

/-- The character that an escape stands for, after its backslash. -/
def readEscape : List Char → Except Stop (Taken Char)
  | [] => failHere .endInString []
  | '"' :: rest => .ok ('"', rest)
  | '\\' :: rest => .ok ('\\', rest)
  | '/' :: rest => .ok ('/', rest)
  | 'b' :: rest => .ok ('\x08', rest)
  | 'f' :: rest => .ok ('\x0c', rest)
  | 'n' :: rest => .ok ('\n', rest)
  | 'r' :: rest => .ok ('\r', rest)
  | 't' :: rest => .ok ('\t', rest)
  | 'u' :: rest => readUnicodeEscape rest
  | rest => failNext .invalidEscape rest

/-- The characters of a string after its opening quote. -/
def readStringChars (fuel : Nat) (taken cs : List Char) : Except Stop (Taken String) :=
  match fuel with
  | 0 => failHere .endInString cs
  | fuel + 1 =>
    match cs with
    | [] => failHere .endInString []
    | '"' :: rest => .ok (String.ofList taken.reverse, rest)
    | '\\' :: rest => do
      let (c, rest) ← readEscape rest
      readStringChars fuel (c :: taken) rest
    | c :: rest =>
      if c.toNat < 0x20 then failHere .controlCharacter rest
      else readStringChars fuel (c :: taken) rest

def readString (cs : List Char) : Except Stop (Taken String) :=
  readStringChars (cs.length + 1) [] cs

/-! ## Numbers -/

/-- Largest integer kept in digits; further digits only move the decimal point. -/
def significandLimit : Nat := UInt64.size

/-- Digits are taken into the significand as long as it stays below the limit. The result is the
significand, the number of digits taken, whether the limit stopped it, and the text left. -/
def takeDigits (significand taken : Nat) : List Char → Nat × Nat × Bool × List Char
  | [] => (significand, taken, false, [])
  | c :: rest =>
    if c.isDigit then
      let next := significand * 10 + (c.toNat - '0'.toNat)
      if next < significandLimit then takeDigits next (taken + 1) rest
      else (significand, taken, true, c :: rest)
    else (significand, taken, false, c :: rest)

def startsExponent : List Char → Bool
  | c :: _ => c = 'e' || c = 'E'
  | [] => false

/-- Dividing by `1e308` as often as needed brings the exponent of a tiny number into the range of
the powers of ten that a double can hold. -/
def scaleDown (x : Float) (exponent : Nat) : Nat → Float
  | 0 => x
  | fuel + 1 =>
    if exponent ≤ 308 then x / Float.ofScientific 1 false exponent
    else if x == 0 then x
    else scaleDown (x / 1e308) (exponent - 308) fuel

/-- The double `±significand * 10 ^ exponent`: the significand is rounded to a double, and that is
multiplied or divided by the power of ten. A number beyond the largest double is refused. -/
def assemble (negative : Bool) (significand : Nat) (exponent : Int) (left : List Char) :
    Except Stop (Taken Float) :=
  let base := (UInt64.ofNat significand).toFloat
  let sign (x : Float) := if negative then -x else x
  if 0 ≤ exponent then
    if 308 < exponent then
      if base == 0 then .ok (sign base, left) else failHere .numberOutOfRange left
    else
      let x := base * Float.ofScientific 1 false exponent.toNat
      if x.isInf then failHere .numberOutOfRange left else .ok (sign x, left)
  else
    .ok (sign (scaleDown base (-exponent).toNat ((-exponent).toNat + 1)), left)

/-- Largest exponent that is kept exactly. -/
def exponentLimit : Nat := Int32.maxValue.toInt.toNat

/-- The digits of an exponent, at most up to the limit; `none` when they pass it. -/
def takeExponent (value : Nat) : List Char → Option Nat × List Char
  | [] => (some value, [])
  | c :: rest =>
    if c.isDigit then
      let next := value * 10 + (c.toNat - '0'.toNat)
      if next ≤ exponentLimit then takeExponent next rest else (none, rest)
    else (some value, c :: rest)

/-- The part of a number after the `e`. -/
def readExponent (negative : Bool) (significand : Nat) (exponent : Int) (cs : List Char) :
    Except Stop (Taken Float) :=
  let (down, cs) := match cs with
    | '+' :: rest => (false, rest)
    | '-' :: rest => (true, rest)
    | _ => (false, cs)
  match cs with
  | [] => failHere .endInValue []
  | c :: rest =>
    if c.isDigit then
      match takeExponent (c.toNat - '0'.toNat) rest with
      | (some e, left) =>
        let shift : Int := if down then -(e : Int) else e
        assemble negative significand (exponent + shift) left
      | (none, left) =>
        if significand ≠ 0 ∧ !down then failHere .numberOutOfRange left
        else .ok (if negative then -0.0 else 0.0, left.dropWhile Char.isDigit)
    else failNext .invalidNumber cs

/-- The part of a number after the point. At least one digit has to follow. -/
def readFraction (negative : Bool) (significand : Nat) (exponent : Int) (cs : List Char) :
    Except Stop (Taken Float) :=
  let (digits, taken, full, left) := takeDigits significand 0 cs
  let exponent := exponent - taken
  let left := if full then left.dropWhile Char.isDigit else left
  if taken = 0 ∧ !full then
    match left with
    | [] => failNext .endInValue []
    | _ => failNext .invalidNumber left
  else if startsExponent left then readExponent negative digits exponent (left.drop 1)
  else assemble negative digits exponent left

/-- What follows the integer part: a fraction, an exponent, or nothing. -/
def readNumberTail (negative : Bool) (significand : Nat) (left : List Char) :
    Except Stop (Taken Number) :=
  match left with
  | '.' :: rest => do
    let (x, left) ← readFraction negative significand 0 rest
    .ok (.float x, left)
  | _ =>
    if startsExponent left then do
      let (x, left) ← readExponent negative significand 0 (left.drop 1)
      .ok (.float x, left)
    else if !negative then .ok (.int significand, left)
    else if significand = 0 ∨ !isInt64 (-(significand : Int)) then
      .ok (.float (-(UInt64.ofNat significand).toFloat), left)
    else .ok (.int (-(significand : Int)), left)

/-- The rest of a number whose integer part does not fit 64 bits. -/
def readLongInteger (negative : Bool) (significand : Nat) (left : List Char) :
    Except Stop (Taken Number) := do
  let skipped := (left.takeWhile Char.isDigit).length
  let left := left.dropWhile Char.isDigit
  let (x, left) ← match left with
    | '.' :: rest => readFraction negative significand skipped rest
    | _ =>
      if startsExponent left then readExponent negative significand skipped (left.drop 1)
      else assemble negative significand skipped left
  .ok (.float x, left)

/-- A number after its sign. A leading zero stands alone. -/
def readNumber (negative : Bool) (cs : List Char) : Except Stop (Taken Number) :=
  match cs with
  | [] => failHere .endInValue []
  | c :: rest =>
    if c = '0' then
      match rest with
      | d :: _ =>
        if d.isDigit then failNext .invalidNumber rest else readNumberTail negative 0 rest
      | [] => readNumberTail negative 0 []
    else if c.isDigit then
      match takeDigits 0 0 cs with
      | (significand, _, true, left) => readLongInteger negative significand left
      | (significand, _, false, left) => readNumberTail negative significand left
    else failNext .invalidNumber cs

/-! ## Values -/

/-- The rest of a word after its first letter. -/
def readWord {α : Type} (value : α) : List Char → List Char → Except Stop (Taken α)
  | [], cs => .ok (value, cs)
  | _ :: _, [] => failHere .endInValue []
  | expected :: word, c :: rest =>
    if c = expected then readWord value word rest else failNext .expectedIdent (c :: rest)

/-- Containers may be nested this deep and no deeper. -/
def nestingLimit : Nat := 127

mutual

/-- A value. `depth` counts the containers that may still be opened. -/
def readValue (fuel depth : Nat) (cs : List Char) : Except Stop (Taken Json) :=
  match fuel with
  | 0 => failNext .nestingTooDeep cs
  | fuel + 1 =>
    let cs := skipBlank cs
    match cs with
    | [] => failNext .endInValue []
    | 'n' :: rest => readWord .null ['u', 'l', 'l'] rest
    | 't' :: rest => readWord (.bool true) ['r', 'u', 'e'] rest
    | 'f' :: rest => readWord (.bool false) ['a', 'l', 's', 'e'] rest
    | '-' :: rest => do
      let (n, left) ← readNumber true rest
      .ok (.number n, left)
    | '"' :: rest => do
      let (s, left) ← readString rest
      .ok (.string s, left)
    | '[' :: rest =>
      match depth with
      | 0 => failNext .nestingTooDeep cs
      | depth + 1 => do
        let (items, left) ← readItems fuel depth true [] rest
        .ok (.array items, left)
    | '\x7b' :: rest =>
      match depth with
      | 0 => failNext .nestingTooDeep cs
      | depth + 1 => do
        let (members, left) ← readMembers fuel depth true [] rest
        .ok (.object members, left)
    | c :: _ =>
      if c.isDigit then do
        let (n, left) ← readNumber false cs
        .ok (.number n, left)
      else failNext .expectedValue cs

/-- The items of a list up to its end; `taken` holds those read so far, latest first. -/
def readItems (fuel depth : Nat) (first : Bool) (taken : List Json) (cs : List Char) :
    Except Stop (Taken (List Json)) :=
  match fuel with
  | 0 => failNext .nestingTooDeep cs
  | fuel + 1 =>
    let cs := skipBlank cs
    match cs with
    | [] => failNext .endInList []
    | ']' :: rest => .ok (taken.reverse, rest)
    | c :: rest =>
      if first then do
        let (item, left) ← readValue fuel depth cs
        readItems fuel depth false (item :: taken) left
      else if c = ',' then
        match skipBlank rest with
        | [] => failNext .endInValue []
        | ']' :: rest => failNext .trailingComma (']' :: rest)
        | rest => do
          let (item, left) ← readValue fuel depth rest
          readItems fuel depth false (item :: taken) left
      else failNext .expectedListEnd cs

/-- The members of an object up to its end. -/
def readMembers (fuel depth : Nat) (first : Bool) (taken : List (String × Json))
    (cs : List Char) : Except Stop (Taken (List (String × Json))) :=
  match fuel with
  | 0 => failNext .nestingTooDeep cs
  | fuel + 1 =>
    let cs := skipBlank cs
    match cs with
    | [] => failNext .endInObject []
    | '\x7d' :: rest => .ok (taken, rest)
    | c :: rest =>
      if first then
        if c = '"' then do
          let (member, left) ← readMember fuel depth rest
          readMembers fuel depth false (insertMember member.1 member.2 taken) left
        else failNext .keyNotString cs
      else if c = ',' then
        match skipBlank rest with
        | [] => failNext .endInValue []
        | '"' :: rest => do
          let (member, left) ← readMember fuel depth rest
          readMembers fuel depth false (insertMember member.1 member.2 taken) left
        | '\x7d' :: rest => failNext .trailingComma ('\x7d' :: rest)
        | rest => failNext .keyNotString rest
      else failNext .expectedObjectEnd cs

/-- A member after the opening quote of its name. -/
def readMember (fuel depth : Nat) (cs : List Char) : Except Stop (Taken (String × Json)) :=
  match fuel with
  | 0 => failNext .nestingTooDeep cs
  | fuel + 1 => do
    let (name, left) ← readString cs
    match skipBlank left with
    | [] => failNext .endInObject []
    | ':' :: rest =>
      let (value, left) ← readValue fuel depth rest
      .ok ((name, value), left)
    | left => failNext .expectedColon left

end

/-- Line and column of the byte position `count` of a text, given as its bytes. -/
def place (bytes : List UInt8) : Nat × Nat :=
  bytes.foldl (fun (line, column) (b : UInt8) =>
    if b = 10 then (line + 1, 0) else (line, column + 1)) (1, 0)

/-- Turns a stop into a fault with its place in the whole text. -/
def Stop.locate (text : String) (stop : Stop) : SyntaxFault :=
  let bytes := text.toUTF8
  let read := bytes.size - (String.ofList stop.left).utf8ByteSize
  let (line, column) := place (bytes.toList.take (read + stop.ahead))
  ⟨stop.cause, line, column⟩

end Reader

open Reader in
/-- Reads a text that holds exactly one JSON value, with blanks around it. -/
def parse (text : String) : Except SyntaxFault Json :=
  let cs := text.toList
  match readValue (4 * cs.length + 4) nestingLimit cs with
  | .error stop => .error (stop.locate text)
  | .ok (json, left) =>
    match skipBlank left with
    | [] => .ok json
    | left => .error (Stop.locate text ⟨.trailingCharacters, left, 1⟩)

end DomainModels.Json
