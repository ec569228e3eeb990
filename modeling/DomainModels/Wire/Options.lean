/-!
How instances are written as JSON trees, and how they are read.
-/

namespace DomainModels

/-- How instances are written. Offsets from UTC are in minutes. -/
structure EncodeOptions where
  /-- Check required values, types, validators, values of enumerations and subtypes. -/
  validate : Bool
  /-- Embed instances that stand where a pointer is declared. -/
  permitResources : Bool
  /-- Write instances that stand where a pointer is declared as pointers. -/
  pointToResources : Bool
  /-- Write each identified instance once, and its URI wherever else it stands. -/
  deduplicate : Bool
  /-- Write pointers as bare identifiers. -/
  bareIdentifiers : Bool
  /-- The offset at which instants are written. -/
  utcOffset : Int
  deriving DecidableEq, Repr

def EncodeOptions.default : EncodeOptions := ⟨true, false, false, false, false, 0⟩

/-- How instances are read. Offsets from UTC are in minutes. -/
structure DecodeOptions where
  /-- Check required values, validators, values of enumerations and targets of pointers. -/
  validate : Bool
  /-- Accept objects where a pointer is declared. -/
  acceptResources : Bool
  /-- Require that instants carry an offset. -/
  strictDateTimes : Bool
  /-- The offset of instants that carry none. -/
  utcOffset : Int
  deriving DecidableEq, Repr

def DecodeOptions.default : DecodeOptions := ⟨true, false, true, 0⟩

end DomainModels
