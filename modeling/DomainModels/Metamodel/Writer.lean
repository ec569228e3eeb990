import DomainModels.Json.Basic
import DomainModels.Metamodel.Basic

/-!
Writing a model back as a JSON tree.

Members come in the order of the fields of their node. Absent values and empty lists of imports and
decorators are left out, while flags, and the lists of declarations, properties and arguments are
always written. Numbers stand in the tree as they are; the text of a tree has null for those that
are not finite.
-/

namespace DomainModels.Metamodel

/-- The members of an object, those that are absent left out. -/
def objectOf (members : List (Option (String × Json))) : Json :=
  .object (members.filterMap id)

def member (name : String) (value : Json) : Option (String × Json) := some (name, value)

/-- A member for a value that may be absent. -/
def optionalMember {α : Type} (name : String) (write : α → Json) (value : Option α) :
    Option (String × Json) :=
  value.map fun v => (name, write v)

/-- A member for a list that is left out when it is empty. -/
def listMember {α : Type} (name : String) (write : α → Json) (values : List α) :
    Option (String × Json) :=
  if values.isEmpty then none else some (name, .array (values.map write))

/-- The tag of a node. -/
def tag (name : String) : Option (String × Json) := member "$class" (.string (nodeClass name))

def writeInt64 (i : Int64) : Json := .int i.toInt

def writeUInt32 (n : UInt32) : Json := .int n.toNat

def Position.write (p : Position) : Json :=
  objectOf [member "line" (writeUInt32 p.line), member "column" (writeUInt32 p.column),
    member "offset" (writeUInt32 p.offset)]

def Location.write (l : Location) : Json :=
  objectOf [member "start" (Position.write l.start), member "end" (Position.write l.stop),
    optionalMember "source" .string l.source]

def TypeName.write (t : TypeName) : Json :=
  objectOf [member "name" (.string t.name), optionalMember "namespace" .string t.space]

def DecoratorArgument.write : DecoratorArgument → Json
  | .text value => objectOf [tag "DecoratorString", member "value" (.string value)]
  | .number value => objectOf [tag "DecoratorNumber", member "value" (.float value)]
  | .flag value => objectOf [tag "DecoratorBoolean", member "value" (.bool value)]
  | .typeReference type isArray =>
    objectOf [tag "DecoratorTypeReference", member "type" type.write,
      member "isArray" (.bool isArray)]

def Decorator.write (d : Decorator) : Json :=
  objectOf [member "name" (.string d.name),
    member "arguments" (.array (d.arguments.map DecoratorArgument.write)),
    optionalMember "location" Location.write d.location]

def TextPattern.write (p : TextPattern) : Json :=
  objectOf [member "pattern" (.string p.pattern), member "flags" (.string p.flags)]

def TextLength.write (l : TextLength) : Json :=
  objectOf [optionalMember "minLength" writeInt64 l.minLength,
    optionalMember "maxLength" writeInt64 l.maxLength]

def Bounds.write {α : Type} (write : α → Json) (b : Bounds α) : Json :=
  objectOf [optionalMember "lower" write b.lower, optionalMember "upper" write b.upper]

/-- The decorators and the location that end every declaration and property. -/
def annotationMembers (decorators : List Decorator) (location : Option Location) :
    List (Option (String × Json)) :=
  [listMember "decorators" Decorator.write decorators,
   optionalMember "location" Location.write location]

/-- The default and the constraints of a primitive type. -/
def Primitive.members : Primitive → List (Option (String × Json))
  | .string default pattern length =>
    [optionalMember "defaultValue" .string default,
     optionalMember "validator" TextPattern.write pattern,
     optionalMember "lengthValidator" TextLength.write length]
  | .integer default bounds | .long default bounds =>
    [optionalMember "defaultValue" writeInt64 default,
     optionalMember "validator" (Bounds.write writeInt64) bounds]
  | .double default bounds =>
    [optionalMember "defaultValue" .float default,
     optionalMember "validator" (Bounds.write .float) bounds]
  | .boolean default => [optionalMember "defaultValue" .bool default]

/-- The word for a primitive type that begins the names of its nodes. -/
def Primitive.word : Primitive → String
  | .string .. => "String"
  | .integer .. => "Integer"
  | .long .. => "Long"
  | .double .. => "Double"
  | .boolean .. => "Boolean"

/-- The flags of a property. -/
def multiplicityMembers (isArray isOptional : Bool) : List (Option (String × Json)) :=
  [member "isArray" (.bool isArray), member "isOptional" (.bool isOptional)]

def Property.write (p : Property) : Json :=
  let name := member "name" (.string p.name)
  let annotations := annotationMembers p.decorators p.location
  match p.shape with
  | .enumValue => objectOf (tag "EnumProperty" :: name :: annotations)
  | .typed type isArray isOptional =>
    let flags := multiplicityMembers isArray isOptional
    match type with
    | .primitive primitive =>
      objectOf (tag (primitive.word ++ "Property") :: name :: flags ++ primitive.members
        ++ annotations)
    | .dateTime => objectOf (tag "DateTimeProperty" :: name :: flags ++ annotations)
    | .object target default =>
      objectOf (tag "ObjectProperty" :: name :: member "type" target.write :: flags
        ++ [optionalMember "defaultValue" .string default] ++ annotations)
    | .relationship target =>
      objectOf (tag "RelationshipProperty" :: name :: member "type" target.write :: flags
        ++ annotations)

def Identified.write : Identified → Json
  | .system => objectOf [tag "Identified"]
  | .by name => objectOf [tag "IdentifiedBy", member "name" (.string name)]

def MapKeyType.write : MapKeyType → Json
  | .string => objectOf [tag "StringMapKeyType"]
  | .dateTime => objectOf [tag "DateTimeMapKeyType"]
  | .integer => objectOf [tag "IntegerMapKeyType"]
  | .long => objectOf [tag "LongMapKeyType"]
  | .double => objectOf [tag "DoubleMapKeyType"]
  | .boolean => objectOf [tag "BooleanMapKeyType"]
  | .object type => objectOf [tag "ObjectMapKeyType", member "type" type.write]

def MapValueType.write : MapValueType → Json
  | .string => objectOf [tag "StringMapValueType"]
  | .integer => objectOf [tag "IntegerMapValueType"]
  | .long => objectOf [tag "LongMapValueType"]
  | .double => objectOf [tag "DoubleMapValueType"]
  | .boolean => objectOf [tag "BooleanMapValueType"]
  | .dateTime => objectOf [tag "DateTimeMapValueType"]
  | .object type => objectOf [tag "ObjectMapValueType", member "type" type.write]
  | .relationship type => objectOf [tag "RelationshipMapValueType", member "type" type.write]

/-- The tag of a declaration. -/
def DeclarationBody.tag : DeclarationBody → Option (String × Json)
  | .classBody kind .. => Metamodel.tag (kind.rootName ++ "Declaration")
  | .enumBody _ => Metamodel.tag "EnumDeclaration"
  | .mapBody .. => Metamodel.tag "MapDeclaration"
  | .scalarBody (.primitive primitive) => Metamodel.tag (primitive.word ++ "Scalar")
  | .scalarBody (.dateTime _) => Metamodel.tag "DateTimeScalar"

/-- The members that are particular to a kind of declaration. -/
def DeclarationBody.members : DeclarationBody → List (Option (String × Json))
  | .classBody _ isAbstract superType identified properties =>
    [member "isAbstract" (.bool isAbstract), optionalMember "superType" TypeName.write superType,
     optionalMember "identified" Identified.write identified,
     member "properties" (.array (properties.map Property.write))]
  | .enumBody properties => [member "properties" (.array (properties.map Property.write))]
  | .mapBody key value => [member "key" key.write, member "value" value.write]
  | .scalarBody (.primitive primitive) => primitive.members
  | .scalarBody (.dateTime default) => [optionalMember "defaultValue" .string default]

def Declaration.write (d : Declaration) : Json :=
  objectOf (d.body.tag :: member "name" (.string d.name) :: d.body.members
    ++ annotationMembers d.decorators d.location)

def Import.write (i : Import) : Json :=
  let space := member "namespace" (.string i.space)
  let uri := optionalMember "uri" .string i.uri
  match i.scope with
  | .all => objectOf [tag "ImportAll", space, uri]
  | .one name => objectOf [tag "ImportType", space, member "name" (.string name), uri]
  | .several names =>
    objectOf [tag "ImportTypes", space, member "types" (.array (names.map .string)), uri]

/-- The JSON tree of a model. -/
def Model.toJson (m : Model) : Json :=
  objectOf
    [member "$class" (.string m.className), member "namespace" (.string m.space),
     optionalMember "sourceUri" .string m.sourceUri, listMember "imports" Import.write m.imports,
     member "declarations" (.array (m.declarations.map Declaration.write)),
     listMember "decorators" Decorator.write m.decorators]

end DomainModels.Metamodel
