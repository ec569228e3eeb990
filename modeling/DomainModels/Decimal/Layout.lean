import DomainModels.Decimal.Shortest

/-!
The two spellings of a double.

Wire texts always show that a number is a double, by a fraction or an exponent, and use an exponent
outside of a middle range of magnitudes. Messages never use an exponent and add no fraction to a
whole number.
-/

namespace DomainModels

/-- How a double is written out. -/
structure DoubleFormat where
  tie : Tie
  /-- Positional notation reaches down to this decimal exponent and up to `maxExponent`; without
  bounds every number is positional. -/
  minExponent : Option Int
  maxExponent : Option Int
  /-- Written after a whole number in positional notation. -/
  wholeSuffix : String
  deriving DecidableEq

namespace DoubleFormat

/-- Wire texts: positional from `1e-5` below `1e16`, and a whole number carries `.0`. -/
def wire : DoubleFormat := ⟨.toEven, some (-5), some 15, ".0"⟩

/-- Messages: always positional, and a whole number has no fraction. -/
def message : DoubleFormat := ⟨.up, none, none, ""⟩

/-- The digits `digits` with the decimal point after the first `point` of them. -/
def positional (f : DoubleFormat) (digits : String) (point : Int) : String :=
  let count : Int := digits.length
  if point ≤ 0 then
    "0." ++ String.ofList (List.replicate (-point).toNat '0') ++ digits
  else if count ≤ point then
    digits ++ String.ofList (List.replicate (point - count).toNat '0') ++ f.wholeSuffix
  else
    let chars := digits.toList
    String.ofList (chars.take point.toNat) ++ "." ++ String.ofList (chars.drop point.toNat)

/-- One digit before the point, the others after it, and a signed exponent. -/
def scientific (digits : String) (exponent : Int) : String :=
  let sign := if exponent < 0 then "-" else "+"
  let tail := match digits.toList.drop 1 with
    | [] => ""
    | rest => "." ++ String.ofList rest
  String.ofList (digits.toList.take 1) ++ tail ++ "e" ++ sign ++ toString exponent.natAbs

/-- The text of a positive decimal. -/
def renderDecimal (f : DoubleFormat) (d : Decimal) : String :=
  let digits := toString d.digits
  let point := (digits.length : Int) + d.exponent
  let exponent := point - 1
  if f.minExponent.all (· ≤ exponent) && f.maxExponent.all (exponent ≤ ·) then
    f.positional digits point
  else
    scientific digits exponent

/-- The text of a double. Zero keeps its sign; the values that are no numbers have names. -/
def render (f : DoubleFormat) (x : Float) : String :=
  if x.isNaN then "NaN"
  else
    let sign := if x.toBits < 0x8000000000000000 then "" else "-"
    if x.isInf then sign ++ "inf"
    else if x == 0 then sign ++ "0" ++ f.wholeSuffix
    else sign ++ f.renderDecimal (Decimal.shortest f.tie (BinaryFraction.ofBits x.toBits))

end DoubleFormat

end DomainModels
