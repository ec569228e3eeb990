import DomainModels.Instance.Value
import DomainModels.Schema.Basic

/-!
Primitive types as types of values: their defaults, and the check of values against them.
-/

namespace DomainModels

namespace Failure

/-- A value of another type than the expected one. -/
def wrongType (path : Path) (expected : String) : Failure := .invalidAt path (.wrongType expected)

/-- A value that breaks a validator. -/
def ofViolation (path : Path) (violation : Violation) : Failure :=
  .invalidAt path (.violation violation)

end Failure

namespace ValueType

/-- The default as a value, for the types whose default is one. That of an instant is a text. -/
def default? : ValueType → Option Value
  | .string _ default => default.map .string
  | .boolean default => default.map .boolean
  | .integer _ default => default.map .integer
  | .long _ default => default.map .long
  | .double _ default => default.map .double
  | .dateTime _ => none

def checkText (validator : Option TextValidator) (path : Path) (text : String) :
    Except Failure Unit :=
  match validator with
  | some v => (v.check path.render text).mapError (Failure.ofViolation path)
  | none => .ok ()

def checkNumber (validator : Option NumberValidator) (path : Path) (value : Float) :
    Except Failure Unit :=
  match validator with
  | some v => (v.check path.render value).mapError (Failure.ofViolation path)
  | none => .ok ()

/-- Checks the shape of a value and then the validator of its type. Integers of either size can
stand for each other and for doubles; they are compared with the bounds as doubles. -/
def check (type : ValueType) (path : Path) (value : Value) : Except Failure Unit :=
  match type, value with
  | .string v _, .string text => checkText v path text
  | .integer v _, .integer i | .integer v _, .long i | .long v _, .integer i | .long v _, .long i =>
    checkNumber v path (Number.ofInt64 i)
  | .double v _, .double x => checkNumber v path x
  | .double v _, .integer i | .double v _, .long i => checkNumber v path (Number.ofInt64 i)
  | .boolean _, .boolean _ | .dateTime _, .dateTime _ => .ok ()
  | _, _ => .error (.wrongType path type.primitive.name)

end ValueType

end DomainModels
