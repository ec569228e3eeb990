import DomainModels.Metamodel.Basic
import DomainModels.Metamodel.Record

/-!
Reading a model tree.

`Model.ofJson` reads one model, whose class it checks first. `modelsOfJson` also reads a bundle,
that is a list of models under one node.
-/

namespace DomainModels.Metamodel

open FieldReader Form

/-! ## Shared nodes -/

def readPosition : NodeReader Position :=
  readRecord "struct Position"
    (Position.mk <$> required "line" readUInt32 <*> required "column" readUInt32
      <*> defaulted "offset" readUInt32 0)

def readLocation : NodeReader Location :=
  readRecord "struct Location"
    (Location.mk <$> required "start" readPosition <*> required "end" readPosition
      <*> optional "source" readText)

def readTypeName : NodeReader TypeName :=
  readRecord "struct TypeIdentifier"
    (TypeName.mk <$> required "name" readText <*> optional "namespace" readText)

def readDecoratorArgument : NodeReader DecoratorArgument :=
  readTagged "DecoratorArgument"
    [record "DecoratorString" "struct variant DecoratorArgument::String"
      (.text <$> required "value" readText),
     record "DecoratorNumber" "struct variant DecoratorArgument::Number"
      (.number <$> required "value" readDouble),
     record "DecoratorBoolean" "struct variant DecoratorArgument::Boolean"
      (.flag <$> required "value" readFlag),
     record "DecoratorTypeReference" "struct variant DecoratorArgument::TypeReference"
      (.typeReference <$> required "type" readTypeName <*> defaulted "isArray" readFlag false)]

def readDecorator : NodeReader Decorator :=
  readRecord "struct Decorator"
    (Decorator.mk <$> required "name" readText <*> listed "arguments" readDecoratorArgument
      <*> optional "location" readLocation)

def readTextPattern : NodeReader TextPattern :=
  readRecord "struct StringRegexValidator"
    (TextPattern.mk <$> required "pattern" readText <*> defaulted "flags" readText "")

def readTextLength : NodeReader TextLength :=
  readRecord "struct StringLengthValidator"
    (TextLength.mk <$> optional "minLength" readInt64 <*> optional "maxLength" readInt64)

def readBounds {α : Type} (value : NodeReader α) : NodeReader (Bounds α) :=
  readRecord "struct DomainValidator"
    (Bounds.mk <$> optional "lower" value <*> optional "upper" value)

/-! ## Imports -/

def readImport : NodeReader Import :=
  readTagged "Import"
    [record "ImportAll" "struct ImportAll"
      ((fun space uri => ⟨space, .all, uri⟩) <$> required "namespace" readText
        <*> optional "uri" readText),
     record "ImportType" "struct ImportType"
      ((fun space name uri => ⟨space, .one name, uri⟩) <$> required "namespace" readText
        <*> required "name" readText <*> optional "uri" readText),
     record "ImportTypes" "struct ImportTypes"
      ((fun space names uri => ⟨space, .several names, uri⟩) <$> required "namespace" readText
        <*> required "types" (readItems readText) <*> optional "uri" readText)]

/-! ## Properties -/

/-- The decorators and the location that end every declaration and property. -/
def annotations : FieldReader (List Decorator × Option Location) :=
  Prod.mk <$> listed "decorators" readDecorator <*> optional "location" readLocation

/-- Whether a property is an array and whether it is optional. -/
def multiplicity : FieldReader (Bool × Bool) :=
  Prod.mk <$> defaulted "isArray" readFlag false <*> defaulted "isOptional" readFlag false

/-- The default, the pattern and the length bounds of texts. -/
def stringFields : FieldReader Primitive :=
  Primitive.string <$> optional "defaultValue" readText <*> optional "validator" readTextPattern
    <*> optional "lengthValidator" readTextLength

/-- The default and the bounds of numbers. -/
def numberFields {α : Type} (make : Option α → Option (Bounds α) → Primitive)
    (value : NodeReader α) : FieldReader Primitive :=
  make <$> optional "defaultValue" value <*> optional "validator" (readBounds value)

def booleanFields : FieldReader Primitive :=
  Primitive.boolean <$> optional "defaultValue" readFlag

/-- A property whose own fields stand after its multiplicity. -/
def typedProperty (type : FieldReader PropertyType) : FieldReader Property :=
  (fun name (many, opt) type (decorators, location) =>
      ⟨name, .typed type many opt, decorators, location⟩)
    <$> required "name" readText <*> multiplicity <*> type <*> annotations

/-- A property of a declared type, which is named before its multiplicity. -/
def referringProperty (default : FieldReader (Option String))
    (make : TypeName → Option String → PropertyType) : FieldReader Property :=
  (fun name type (many, opt) default (decorators, location) =>
      ⟨name, .typed (make type default) many opt, decorators, location⟩)
    <$> required "name" readText <*> required "type" readTypeName <*> multiplicity <*> default
    <*> annotations

def enumProperty : FieldReader Property :=
  (fun name (decorators, location) => ⟨name, .enumValue, decorators, location⟩)
    <$> required "name" readText <*> annotations

def readProperty : NodeReader Property :=
  readTagged "Property"
    [record "StringProperty" "struct StringProperty" (typedProperty (.primitive <$> stringFields)),
     record "IntegerProperty" "struct NumericProperty"
      (typedProperty (.primitive <$> numberFields .integer readInt64)),
     record "LongProperty" "struct NumericProperty"
      (typedProperty (.primitive <$> numberFields .long readInt64)),
     record "DoubleProperty" "struct NumericProperty"
      (typedProperty (.primitive <$> numberFields .double readDouble)),
     record "BooleanProperty" "struct BooleanProperty"
      (typedProperty (.primitive <$> booleanFields)),
     record "DateTimeProperty" "struct DateTimeProperty" (typedProperty (pure .dateTime)),
     record "ObjectProperty" "struct ObjectProperty"
      (referringProperty (optional "defaultValue" readText) .object),
     record "RelationshipProperty" "struct RelationshipProperty"
      (referringProperty (pure none) fun type _ => .relationship type),
     record "EnumProperty" "struct EnumProperty" enumProperty]

/-! ## Declarations -/

def readIdentified : NodeReader Identified :=
  readTagged "Identified"
    [plain "Identified" .system,
     record "IdentifiedBy" "struct variant Identified::By" (.by <$> required "name" readText)]

def readMapKeyType : NodeReader MapKeyType :=
  readTagged "MapKeyType"
    [plain "StringMapKeyType" .string, plain "DateTimeMapKeyType" .dateTime,
     plain "IntegerMapKeyType" .integer, plain "LongMapKeyType" .long,
     plain "DoubleMapKeyType" .double, plain "BooleanMapKeyType" .boolean,
     record "ObjectMapKeyType" "struct variant MapKeyType::Object"
      (.object <$> required "type" readTypeName)]

def readMapValueType : NodeReader MapValueType :=
  readTagged "MapValueType"
    [plain "StringMapValueType" .string, plain "IntegerMapValueType" .integer,
     plain "LongMapValueType" .long, plain "DoubleMapValueType" .double,
     plain "BooleanMapValueType" .boolean, plain "DateTimeMapValueType" .dateTime,
     record "ObjectMapValueType" "struct variant MapValueType::Object"
      (.object <$> required "type" readTypeName),
     record "RelationshipMapValueType" "struct variant MapValueType::Relationship"
      (.relationship <$> required "type" readTypeName)]

/-- A declaration whose body has fields of its own. -/
def declaration (body : FieldReader DeclarationBody) : FieldReader Declaration :=
  (fun name body (decorators, location) => ⟨name, body, decorators, location⟩)
    <$> required "name" readText <*> body <*> annotations

def classFields (kind : ClassKind) : FieldReader Declaration :=
  declaration (DeclarationBody.classBody kind <$> defaulted "isAbstract" readFlag false
    <*> optional "superType" readTypeName <*> optional "identified" readIdentified
    <*> listed "properties" readProperty)

def scalarFields (type : FieldReader ScalarType) : FieldReader Declaration :=
  declaration (.scalarBody <$> type)

def readDeclaration : NodeReader Declaration :=
  readTagged "Declaration"
    [record "ConceptDeclaration" "struct ClassDeclaration" (classFields .concept),
     record "AssetDeclaration" "struct ClassDeclaration" (classFields .asset),
     record "ParticipantDeclaration" "struct ClassDeclaration" (classFields .participant),
     record "TransactionDeclaration" "struct ClassDeclaration" (classFields .transaction),
     record "EventDeclaration" "struct ClassDeclaration" (classFields .event),
     record "EnumDeclaration" "struct EnumDeclaration"
      (declaration (.enumBody <$> listed "properties" readProperty)),
     record "MapDeclaration" "struct MapDeclaration"
      (declaration (.mapBody <$> required "key" readMapKeyType
        <*> required "value" readMapValueType)),
     record "StringScalar" "struct StringScalar" (scalarFields (.primitive <$> stringFields)),
     record "IntegerScalar" "struct NumericScalar"
      (scalarFields (.primitive <$> numberFields .integer readInt64)),
     record "LongScalar" "struct NumericScalar"
      (scalarFields (.primitive <$> numberFields .long readInt64)),
     record "DoubleScalar" "struct NumericScalar"
      (scalarFields (.primitive <$> numberFields .double readDouble)),
     record "BooleanScalar" "struct BooleanScalar" (scalarFields (.primitive <$> booleanFields)),
     record "DateTimeScalar" "struct DateTimeScalar"
      (scalarFields (.dateTime <$> optional "defaultValue" readText))]

/-! ## Models -/

def readModel : NodeReader Model :=
  readRecord "struct Model"
    (Model.mk <$> required "$class" readText <*> required "namespace" readText
      <*> optional "sourceUri" readText <*> listed "imports" readImport
      <*> listed "declarations" readDeclaration <*> listed "decorators" readDecorator)

/-- The models of a bundle. -/
def readBundle : NodeReader (List Model) :=
  readRecord "struct Models"
    ((fun _ models => models) <$> required "$class" readText <*> listed "models" readModel)

/-- The class of a node. -/
def classOf (json : Json) : Except Fault String :=
  match (json.get? "$class").bind Json.string? with
  | some name => .ok name
  | none => .error .noClass

/-- The name of the metamodel, whatever its version. -/
def metamodelName : String := "concerto.metamodel"

/-- Checks that the class of a node is the expected one of this metamodel. -/
def checkNodeClass (name expected : String) : Except Fault Unit :=
  match Text.cutLast '.' name.toList with
  | none => .error (.malformedClass name)
  | some (front, back) =>
    if String.ofList front ≠ space then
      let base := ((Text.cutFirst '@' front).map Prod.fst).getD front
      if String.ofList base = metamodelName then .error (.otherVersion (String.ofList front))
      else .error (.foreignClass name)
    else if String.ofList back ≠ expected then .error (.unexpectedNode expected name)
    else .ok ()

/-- Reads a model, whose class has to be the model class of this metamodel. -/
def Model.ofJson (json : Json) : Except Fault Model := do
  checkNodeClass (← classOf json) "Model"
  (readModel false json).mapError .node

/-- Reads a model, or the models of a bundle. -/
def modelsOfJson (json : Json) : Except Fault (List Model) := do
  let name ← classOf json
  if ".Models".toList.isSuffixOf name.toList then
    checkNodeClass name "Models"
    (readBundle false json).mapError .node
  else
    return [← Model.ofJson json]

def Fault.message : Fault → String
  | .noClass => "AST node does not contain a $class discriminator"
  | .malformedClass name => s!"Invalid $class \"{name}\""
  | .otherVersion found =>
    s!"Metamodel version mismatch: expected \"{space}\", found \"{found}\""
  | .foreignClass name => s!"Invalid $class \"{name}\"; expected a {space} node"
  | .unexpectedNode expected found => s!"Expected a {expected} node, found \"{found}\""
  | .node fault => fault.message

end DomainModels.Metamodel
