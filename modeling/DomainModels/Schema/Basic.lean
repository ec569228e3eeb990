import DomainModels.Schema.Decorators
import DomainModels.Schema.Kinds
import DomainModels.Validator.Basic

/-!
Declarations after the checks that concern one model alone.

Validators are built, each default has been checked against them, and decorators have passed the
factories. References to other types are kept as they were written; they are resolved against the
other models later.
-/

namespace DomainModels

open Metamodel (TypeName Decorator Identified)

/-- A primitive type with its validator and its default. -/
inductive ValueType where
  | string (validator : Option TextValidator) (default : Option String)
  | boolean (default : Option Bool)
  | dateTime (default : Option String)
  | double (validator : Option NumberValidator) (default : Option Float)
  | integer (validator : Option NumberValidator) (default : Option Int64)
  | long (validator : Option NumberValidator) (default : Option Int64)

namespace ValueType

/-- The primitive type alone. -/
def primitive : ValueType → PrimitiveType
  | .string .. => .string
  | .boolean _ => .boolean
  | .dateTime _ => .dateTime
  | .double .. => .double
  | .integer .. => .integer
  | .long .. => .long

/-- The validator of a text type. -/
def textValidator? : ValueType → Option TextValidator
  | .string validator _ => validator
  | _ => none

/-- The validator of a number type. -/
def numberValidator? : ValueType → Option NumberValidator
  | .double validator _ | .integer validator _ | .long validator _ => validator
  | _ => none

/-- A primitive type without a validator and a default. -/
def plain : PrimitiveType → ValueType
  | .string => .string none none
  | .boolean => .boolean none
  | .dateTime => .dateTime none
  | .double => .double none none
  | .integer => .integer none none
  | .long => .long none none

end ValueType

/-- What a property holds: primitive values, instances of a declared type, or pointers to instances
of a class. The default of a declared type names a value of an enumeration. -/
inductive PropertyType where
  | value (type : ValueType)
  | declared (type : TypeName) (default : Option String)
  | relationship (type : TypeName)

/-- A property of a class, or the part of a map that stands for its keys or its values. -/
structure Property where
  name : String
  type : PropertyType
  isArray : Bool
  isOptional : Bool
  decorators : List Decorator
  location : Option Location

/-- A value of an enumeration. -/
structure EnumValue where
  name : String
  decorators : List Decorator
  location : Option Location

/-- What a class adds to a declaration. Without a super type it extends the root class of its
kind. -/
structure ClassBody where
  kind : ClassKind
  isAbstract : Bool
  superType : Option TypeName
  identified : Option Identified
  properties : List Property

/-- What is particular to each kind of declaration. -/
inductive DeclarationBody where
  | classBody (body : ClassBody)
  | scalarBody (type : ValueType)
  | mapBody (key value : PropertyType)
  | enumBody (values : List EnumValue)

/-- A declaration of a type in a namespace. -/
structure Declaration where
  name : String
  space : String
  body : DeclarationBody
  decorators : List Decorator
  location : Option Location

namespace Declaration

def fqn (d : Declaration) : String := qualify d.space d.name

def kind (d : Declaration) : DeclarationKind :=
  match d.body with
  | .classBody body => .ofClass body.kind
  | .scalarBody _ => .scalar
  | .mapBody .. => .map
  | .enumBody _ => .enum

def class? (d : Declaration) : Option ClassBody :=
  match d.body with
  | .classBody body => some body
  | _ => none

/-- The property that stands for the keys or the values of a map. -/
def mapPart (d : Declaration) (name : String) (type : PropertyType) : Property :=
  ⟨name, type, false, false, [], d.location⟩

/-- The decorators of a declaration, followed by those of its parts. -/
def allDecorators (d : Declaration) : List Decorator :=
  d.decorators ++
    match d.body with
    | .classBody body => body.properties.flatMap (·.decorators)
    | .enumBody values => values.flatMap (·.decorators)
    | _ => []

end Declaration

/-- Whether a name is one of an enumeration's values. -/
def hasEnumValue (values : List EnumValue) (name : String) : Bool := values.any (·.name = name)

end DomainModels
