import DomainModels.Text.Digits
import DomainModels.Text.Utf8

/-!
Percent-encoding.

Every byte of a character that is not kept becomes a percent sign with two hexadecimal digits. Which
characters are kept depends on what the text is a part of.
-/

namespace DomainModels.Percent

/-- Characters that an encoded identifier keeps. -/
def isKept (c : Char) : Bool := c.isAlphanum || "-_.!~*'()".toList.contains c

def encodeByte (b : UInt8) : List Char :=
  ['%', Text.upperHexDigit (b.toNat / 16), Text.upperHexDigit (b.toNat % 16)]

/-- A character that is kept, or the escapes of its bytes. -/
def escapeChar (keeps : Char → Bool) (c : Char) : List Char :=
  if keeps c then [c] else (String.utf8EncodeChar c).flatMap encodeByte

/-- A text in which only the characters that are kept stand for themselves. -/
def escape (keeps : Char → Bool) (cs : List Char) : List Char := cs.flatMap (escapeChar keeps)

/-- An identifier as it is written in a URI. -/
def encode (cs : List Char) : List Char := escape isKept cs

/-- The bytes that a text stands for. A percent sign without two digits stands for itself. -/
def toBytes : List Char → List UInt8
  | [] => []
  | '%' :: a :: b :: rest =>
    match Text.hexValue? a, Text.hexValue? b with
    | some high, some low => (high * 16 + low).toUInt8 :: toBytes rest
    | _, _ => String.utf8EncodeChar '%' ++ toBytes (a :: b :: rest)
  | c :: rest => String.utf8EncodeChar c ++ toBytes rest

/-- The text that is encoded in a text, with replacements where its bytes are malformed. -/
def decode (cs : List Char) : List Char := Utf8.decode (toBytes cs)

end DomainModels.Percent
