import DomainModels.Metamodel.Basic

/-!
The kinds of declarations and the primitive types, by name.
-/

namespace DomainModels

/-- The kinds of declarations. -/
inductive DeclarationKind where
  | ofClass (kind : ClassKind)
  | scalar
  | map
  | enum
  deriving DecidableEq, Repr

def DeclarationKind.name : DeclarationKind → String
  | .ofClass kind => kind.rootName
  | .scalar => "Scalar"
  | .map => "Map"
  | .enum => "Enum"

/-- The primitive types. -/
inductive PrimitiveType where
  | string
  | boolean
  | dateTime
  | double
  | integer
  | long
  deriving DecidableEq, Repr

namespace PrimitiveType

def name : PrimitiveType → String
  | .string => "String"
  | .boolean => "Boolean"
  | .dateTime => "DateTime"
  | .double => "Double"
  | .integer => "Integer"
  | .long => "Long"

/-- Every primitive type. -/
def all : List PrimitiveType := [.string, .boolean, .dateTime, .double, .integer, .long]

/-- The primitive type of a name. -/
def ofName? (name : String) : Option PrimitiveType := all.find? (·.name = name)

end PrimitiveType

end DomainModels
