import DomainModels.Names

/-!
The syntax tree of a model.

A model declares the types of one namespace: classes of five kinds, enumerations, maps and scalars.
The tree keeps what a schema parser wrote down; it is not yet checked beyond its shape.
-/

namespace DomainModels

/-- A place in a model source. -/
structure Position where
  line : UInt32
  column : UInt32
  offset : UInt32
  deriving DecidableEq, Repr

/-- A range in a model source. -/
structure Location where
  start : Position
  stop : Position
  source : Option String
  deriving DecidableEq, Repr

/-- A location is named by the place where it starts. -/
def Location.render (l : Location) : String :=
  s!"line {l.start.line} column {l.start.column}"

/-- The five kinds of classes. -/
inductive ClassKind where
  | concept
  | asset
  | participant
  | transaction
  | event
  deriving DecidableEq, Repr

namespace ClassKind

/-- Short name of the root class of a kind. -/
def rootName : ClassKind → String
  | .concept => "Concept"
  | .asset => "Asset"
  | .participant => "Participant"
  | .transaction => "Transaction"
  | .event => "Event"

/-- Fully-qualified name of the root class of a kind. -/
def rootClass (kind : ClassKind) : String := qualify rootNamespace kind.rootName

/-- Transactions and events carry a time stamp. -/
def isTimestamped : ClassKind → Bool
  | .transaction | .event => true
  | _ => false

end ClassKind

namespace Metamodel

/-- Namespace of the metamodel. -/
def space : String := "concerto.metamodel@1.0.0"

/-- The class of a metamodel node. -/
def nodeClass (name : String) : String := qualify space name

/-- A reference to a type, which may name its namespace. -/
structure TypeName where
  name : String
  space : Option String
  deriving DecidableEq, Repr

/-- The name under which a type is looked up. -/
def TypeName.render (t : TypeName) : String :=
  match t.space with
  | some space => qualify space t.name
  | none => t.name

/-- What is imported from a namespace: every type, one type, or a list of types. -/
inductive ImportScope where
  | all
  | one (name : String)
  | several (names : List String)
  deriving DecidableEq, Repr

/-- An import, with the place from which the namespace can be fetched. -/
structure Import where
  space : String
  scope : ImportScope
  uri : Option String
  deriving DecidableEq, Repr

/-- The types that an import names. -/
def ImportScope.names : ImportScope → List String
  | .all => []
  | .one name => [name]
  | .several names => names

/-- An argument of a decorator. -/
inductive DecoratorArgument where
  | text (value : String)
  | number (value : Float)
  | flag (value : Bool)
  | typeReference (type : TypeName) (isArray : Bool)

/-- An annotation on a model, a declaration or a property. -/
structure Decorator where
  name : String
  arguments : List DecoratorArgument
  location : Option Location

/-- A pattern for texts, with flags. -/
structure TextPattern where
  pattern : String
  flags : String
  deriving DecidableEq, Repr

/-- Bounds on the length of a text. -/
structure TextLength where
  minLength : Option Int64
  maxLength : Option Int64
  deriving DecidableEq

/-- Bounds on a number. -/
structure Bounds (α : Type) where
  lower : Option α
  upper : Option α

/-- A primitive type with its default and its constraints. -/
inductive Primitive where
  | string (default : Option String) (pattern : Option TextPattern) (length : Option TextLength)
  | integer (default : Option Int64) (bounds : Option (Bounds Int64))
  | long (default : Option Int64) (bounds : Option (Bounds Int64))
  | double (default : Option Float) (bounds : Option (Bounds Float))
  | boolean (default : Option Bool)

/-- The type of a property that holds values. A property of a declared type may name a default
value of an enumeration. -/
inductive PropertyType where
  | primitive (type : Primitive)
  | dateTime
  | object (type : TypeName) (default : Option String)
  | relationship (type : TypeName)

/-- A property is a field or a relationship, or one value of an enumeration. -/
inductive PropertyShape where
  | typed (type : PropertyType) (isArray isOptional : Bool)
  | enumValue

/-- A property of a declaration. -/
structure Property where
  name : String
  shape : PropertyShape
  decorators : List Decorator
  location : Option Location

/-- How the instances of a class are identified: by the system, or by a field. -/
inductive Identified where
  | system
  | by (name : String)
  deriving DecidableEq, Repr

/-- Types of the keys of a map. -/
inductive MapKeyType where
  | string
  | dateTime
  | integer
  | long
  | double
  | boolean
  | object (type : TypeName)
  deriving DecidableEq, Repr

/-- Types of the values of a map. -/
inductive MapValueType where
  | string
  | integer
  | long
  | double
  | boolean
  | dateTime
  | object (type : TypeName)
  | relationship (type : TypeName)
  deriving DecidableEq, Repr

/-- What a scalar stands for. -/
inductive ScalarType where
  | primitive (type : Primitive)
  | dateTime (default : Option String)

/-- What is particular to each kind of declaration. -/
inductive DeclarationBody where
  | classBody (kind : ClassKind) (isAbstract : Bool) (superType : Option TypeName)
      (identified : Option Identified) (properties : List Property)
  | enumBody (properties : List Property)
  | mapBody (key : MapKeyType) (value : MapValueType)
  | scalarBody (type : ScalarType)

/-- A declaration of a type. -/
structure Declaration where
  name : String
  body : DeclarationBody
  decorators : List Decorator
  location : Option Location

/-- The declarations of one namespace. -/
structure Model where
  className : String
  space : String
  sourceUri : Option String
  imports : List Import
  declarations : List Declaration
  decorators : List Decorator

/-- A model of a namespace that declares nothing. -/
def Model.empty (space : String) : Model :=
  ⟨nodeClass "Model", space, none, [], [], []⟩

end Metamodel

end DomainModels
