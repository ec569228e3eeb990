import DomainModels.Relationship
import DomainModels.Validator.Basic
import DomainModels.Wire.Path

/-!
Why an instance, or its JSON tree, does not conform to its declaration.
-/

namespace DomainModels

/-- How data departs from its declaration. -/
inductive Invalidity where
  | violation (violation : Violation)
  | badPointer (fault : Relationship.Fault)
  | noClass
  | abstractInTree (fqn : String)
  | abstractInstance (fqn : String)
  | abstractType (fqn : String)
  | identifiedType (fqn : String)
  | unidentifiedType (fqn : String)
  | pointerToUnidentified (fqn : String)
  | noIdentifierField (fqn : String)
  | reservedMembers (fqn : String) (names : List String)
  | undeclaredMembers (fqn : String) (names : List String)
  | undeclaredValue (label name fqn : String)
  | missingValue (label name : String)
  | emptyIdentifier (fqn : String)
  | wrongType (expected : String)
  | boxedScalar (expected : String)
  | notFinite
  | notAnEnumValue (value enum : String)
  | notAssignable (fqn declared : String)
  | pointsElsewhere (fqn declared : String)
  | noPointer (declared : String)
  | embedded (declared : String)
  | unpointable

/-- The message for data at the place of the given text. -/
def Invalidity.message (path : String) : Invalidity → String
  | .violation v => v.message
  | .badPointer fault => fault.message
  | .noClass => "Invalid JSON data. Does not contain a $class type identifier."
  | .abstractInTree fqn => s!"Cannot instantiate abstract type `{fqn}`"
  | .abstractInstance fqn => s!"Cannot serialize an instance of the abstract type `{fqn}`"
  | .abstractType fqn => s!"Cannot instantiate the abstract type \"{fqn}\""
  | .identifiedType fqn => s!"Type \"{fqn}\" is identified; use new_resource"
  | .unidentifiedType fqn => s!"Type \"{fqn}\" is not identified; use new_concept"
  | .pointerToUnidentified fqn =>
    s!"Cannot create a relationship to \"{fqn}\": the type is not identified"
  | .noIdentifierField fqn => s!"Type {fqn} is not identified"
  | .reservedMembers fqn names =>
    s!"Unexpected reserved properties for type {fqn}: " ++ ", ".intercalate names
  | .undeclaredMembers fqn names =>
    s!"Unexpected properties for type {fqn}: " ++ ", ".intercalate names
  | .undeclaredValue label name fqn =>
    s!"Instance `{label}` has a property named `{name}`, which is not declared in `{fqn}`"
  | .missingValue label name => s!"The instance `{label}` is missing the required field `{name}`"
  | .emptyIdentifier fqn => s!"The instance of `{fqn}` has an empty identifier"
  | .wrongType expected | .boxedScalar expected =>
    s!"Expected value at path `{path}` to be of type `{expected}`"
  | .notFinite => s!"Value at path `{path}` is not a finite number"
  | .notAnEnumValue value enum =>
    s!"Value `{value}` at path `{path}` is not a valid value of the enum `{enum}`"
  | .notAssignable fqn declared =>
    s!"Instance of type `{fqn}` at path `{path}` is not assignable "
      ++ s!"to the declared type `{declared}`"
  | .pointsElsewhere fqn declared =>
    s!"Relationship at path `{path}` points to `{fqn}`, which is not assignable to `{declared}`"
  | .noPointer declared =>
    s!"Expected value at path `{path}` to be a relationship to `{declared}`"
  | .embedded declared =>
    s!"Did not find a relationship for `{declared}` at path `{path}`; found an embedded resource"
  | .unpointable => s!"Resource at path `{path}` has no identifier and cannot be a relationship"

end DomainModels
