/-!
Bytes of texts, and texts of bytes that may be malformed.
-/

namespace DomainModels.Utf8

/-- Stands for bytes that are not part of a character. -/
def replacement : Char := '\ufffd'

/-- What a byte is at the start of a character: a character of its own, the first of several bytes
with the ranges in which the others have to lie, or none of these. -/
inductive Lead where
  | single (c : Char)
  | first (bits : Nat) (ranges : List (UInt8 × UInt8))
  | stray

/-- The range of most bytes that continue a character. -/
def anyContinuation : UInt8 × UInt8 := (0x80, 0xbf)

def Lead.ofByte (b : UInt8) : Lead :=
  if b < 0x80 then .single (Char.ofNat b.toNat)
  else if b < 0xc2 then .stray
  else if b < 0xe0 then .first (b.toNat % 32) [anyContinuation]
  else if b = 0xe0 then .first 0 [(0xa0, 0xbf), anyContinuation]
  else if b = 0xed then .first 13 [(0x80, 0x9f), anyContinuation]
  else if b < 0xf0 then .first (b.toNat % 16) [anyContinuation, anyContinuation]
  else if b = 0xf0 then .first 0 [(0x90, 0xbf), anyContinuation, anyContinuation]
  else if b < 0xf4 then .first (b.toNat % 8) [anyContinuation, anyContinuation, anyContinuation]
  else if b = 0xf4 then .first 4 [(0x80, 0x8f), anyContinuation, anyContinuation]
  else .stray

/-- Reads a byte that starts a character, and goes on with the bits and ranges that are pending. -/
def startWith (b : UInt8) (more : Nat → List (UInt8 × UInt8) → List Char) : List Char :=
  match Lead.ofByte b with
  | .single c => c :: more 0 []
  | .first bits ranges => more bits ranges
  | .stray => replacement :: more 0 []

/-- Reads bytes after the start of a character whose remaining bytes have to lie in `ranges`. Each
longest start of a character that breaks off becomes one replacement. -/
def decodeFrom (bits : Nat) : List (UInt8 × UInt8) → List UInt8 → List Char
  | [], [] => []
  | _ :: _, [] => [replacement]
  | [], b :: rest => startWith b fun bits ranges => decodeFrom bits ranges rest
  | (low, high) :: ranges, b :: rest =>
    if low ≤ b ∧ b ≤ high then
      let bits := bits * 64 + b.toNat % 64
      if ranges.isEmpty then Char.ofNat bits :: decodeFrom 0 [] rest
      else decodeFrom bits ranges rest
    else replacement :: startWith b fun bits ranges => decodeFrom bits ranges rest

/-- The text of bytes, with replacements for what is malformed. -/
def decode (bytes : List UInt8) : List Char := decodeFrom 0 [] bytes

/-- The bytes of a text. -/
def encode (cs : List Char) : List UInt8 := cs.flatMap String.utf8EncodeChar

end DomainModels.Utf8
