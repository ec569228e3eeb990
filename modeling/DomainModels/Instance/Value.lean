import DomainModels.DateTime.Basic
import DomainModels.Failure.Basic
import DomainModels.Table

/-!
Instances of classes, and the values that their properties hold.
-/

namespace DomainModels

mutual

/-- A value of a property. -/
inductive Value where
  | string (text : String)
  | boolean (value : Bool)
  | integer (value : Int64)
  | long (value : Int64)
  | double (value : Float)
  | dateTime (value : DateTime)
  | enum (name : String)
  | array (items : List Value)
  | map (entries : List (Value × Value))
  | concept (resource : Resource)
  | relationship (pointer : Relationship)

/-- An instance of a class. The values are a table, by the names of the properties. An instance of
an identified class names the property that holds its identifier. -/
structure Resource where
  space : String
  typeName : String
  identifierField : Option String
  values : List (String × Value)

end

/-- The name of the shape of a value. -/
def Value.shape : Value → String
  | .string _ => "String"
  | .boolean _ => "Boolean"
  | .integer _ => "Integer"
  | .long _ => "Long"
  | .double _ => "Double"
  | .dateTime _ => "DateTime"
  | .enum _ => "Enum"
  | .array _ => "Array"
  | .map _ => "Map"
  | .concept _ => "Concept"
  | .relationship _ => "Relationship"

/-- The text of a value that is one. -/
def Value.string? : Value → Option String
  | .string text => some text
  | _ => none

namespace Resource

/-- An instance without values. -/
def empty (space typeName : String) (identifierField : Option String) : Resource :=
  ⟨space, typeName, identifierField, []⟩

/-- The fully-qualified name of the class. -/
def fqn (r : Resource) : String := qualify r.space r.typeName

def get? (r : Resource) (name : String) : Option Value := Table.find? r.values name

def contains (r : Resource) (name : String) : Bool := Table.contains r.values name

def set (r : Resource) (name : String) (value : Value) : Resource :=
  { r with values := Table.put name value r.values }

def remove (r : Resource) (name : String) : Resource :=
  { r with values := Table.erase name r.values }

/-- The identifier, if the instance has one and it is a text. -/
def identifier? (r : Resource) : Option String :=
  r.identifierField.bind fun field => (r.get? field).bind Value.string?

/-- Gives an identifier to an instance of an identified class. -/
def setIdentifier (r : Resource) (id : String) : Except Failure Resource :=
  match r.identifierField with
  | some field => .ok (r.set field (.string id))
  | none => .error (.invalid (.noIdentifierField r.fqn) none)

/-- A pointer to the instance. -/
def pointer? (r : Resource) : Option Relationship :=
  r.identifier?.map fun id => ⟨r.space, r.typeName, id⟩

/-- The fully-qualified name of the class with the identifier. -/
def fullyQualifiedId? (r : Resource) : Option String := r.pointer?.map (·.fullyQualifiedId)

/-- The URI of the instance. -/
def uri? (r : Resource) : Option String := r.pointer?.map (·.toUri)

/-- How messages name the instance: with its identifier, if it has one. -/
def label (r : Resource) : String := r.fullyQualifiedId?.getD r.fqn

/-- The values of an instance are smaller than the instance. -/
theorem sizeOf_get? {r : Resource} {name : String} {value : Value}
    (hFound : r.get? name = some value) : sizeOf value < sizeOf r := by
  have hSmaller := Table.sizeOf_find? hFound
  cases r
  simp at hSmaller ⊢
  omega

end Resource

end DomainModels
