import DomainModels.Failure.Missing
import DomainModels.Json.Reader
import DomainModels.Namespace
import DomainModels.Schema.Decorators
import DomainModels.Validator.Basic

/-!
Why a model is not legal.
-/

namespace DomainModels

/-- Why a model, or a change of the loaded models, is refused. -/
inductive Illegality where
  | badText (fault : Json.SyntaxFault)
  | badNamespace (fault : Namespace.Fault)
  | unversionedImport (imported space : String)
  | conflictingImports (fqn existing : String)
  | duplicateDeclaration (name : String)
  | declaredAndImported (name imported : String)
  | duplicateDecorator (name : String) (target : DecoratorTarget)
  | refusedDecorator (name : String) (target : DecoratorTarget)
  | badDecoratorReference (name : String) (cause : Missing)
  | badValidator (fault : ValidatorFault)
  | badFieldDefault (name : String) (violation : Violation)
  | badScalarDefault (name : String) (violation : Violation)
  | badEnumDefault (default field enum : String)
  | badDateTimeDefault (text field : String)
  | enumValueInClass (className value : String)
  | fieldInEnum (enum field : String)
  | duplicateEnumValue (value enum : String)
  | notAClass (fqn : String) (kind : DeclarationKind)
  | inheritanceCycle (cycle : List String)
  | extendsItself (className : String)
  | extendsOtherKind (kind : ClassKind) (className : String) (parentKind : ClassKind)
      (parent : String)
  | extendsNoClass (className parent : String) (parentKind : DeclarationKind)
  | overriddenIdentifier
  | reservedField (field className : String)
  | duplicateField (className field : String)
  | inheritedField (field className owner : String)
  | missingIdentifier (className field : String)
  | identifierNoText (className field : String)
  | optionalIdentifier (field className : String)
  | arrayIdentifier (field className : String)
  | relationshipToNoClass (relationship target : String)
  | unidentifiedTarget (relationship target : String)
  | badMapKey (type map : String)
  | systemNamespace
  | duplicateNamespace (space : String)

namespace Illegality

private def messageOfField : Illegality → String
  | .overriddenIdentifier =>
    "Identifier defined in super class, identifiers cannot be overridden"
  | .reservedField field className =>
    s!"Invalid field name '{field}' in class {className}: names starting with $ are reserved"
  | .duplicateField className field =>
    s!"Class {className} has more than one field named {field}"
  | .inheritedField field className owner =>
    s!"Field {field} in class {className} is already declared in super class {owner}"
  | .missingIdentifier className field =>
    s!"Class {className} is identified by field {field}, but the field is not declared"
  | .identifierNoText className field =>
    s!"Class {className} is identified by field {field}, but the type of the field is not String"
  | .optionalIdentifier field className =>
    s!"Identifying field {field} of class {className} cannot be optional"
  | .arrayIdentifier field className =>
    s!"Identifying field {field} of class {className} cannot be an array"
  | .relationshipToNoClass relationship target =>
    s!"Relationship {relationship} must target a class, but {target} is not a class"
  | .unidentifiedTarget relationship target =>
    s!"Relationship {relationship} must be to a class that has an identifier, "
      ++ s!"but this is not the case for class {target}"
  | .badMapKey type map =>
    s!"Invalid map key type {type} in map {map}: keys must be String, DateTime or a scalar of those"
  | .systemNamespace => s!"The system namespace {rootNamespace} cannot be modified"
  | .duplicateNamespace space => s!"Namespace {space} is already declared"
  | _ => ""

def message : Illegality → String
  | .badText fault => "Failed to parse JSON: " ++ fault.message
  | .badNamespace fault => fault.message
  | .unversionedImport imported space =>
    s!"Import of namespace \"{imported}\" in \"{space}\" must specify a version"
  | .conflictingImports fqn existing =>
    s!"Import of {fqn} conflicts with the import of {existing}"
  | .duplicateDeclaration name => s!"Duplicate class name {name}"
  | .declaredAndImported name imported =>
    s!"Type {name} is declared locally and also imported as {imported}"
  | .duplicateDecorator name target => s!"Duplicate decorator {name} on {target.render}"
  | .refusedDecorator name target => s!"Decorator {name} refused on {target.render}"
  | .badDecoratorReference name cause =>
    s!"Decorator {name} references an unknown type: {cause.message}"
  | .badValidator fault => fault.message
  | .badFieldDefault name violation =>
    s!"Default value for field {name} is invalid: {violation.message}"
  | .badScalarDefault name violation =>
    s!"Default value for scalar {name} is invalid: {violation.message}"
  | .badEnumDefault default field enum =>
    s!"Default value {default} of field {field} is not a value of enum {enum}"
  | .badDateTimeDefault text field =>
    s!"Invalid DateTime default \"{text}\" for field {field}"
  | .enumValueInClass className value =>
    s!"Class {className} cannot declare enum value {value}"
  | .fieldInEnum enum field =>
    s!"Enum {enum} can only contain enum values, found field {field}"
  | .duplicateEnumValue value enum => s!"Duplicate enum value {value} in enum {enum}"
  | .notAClass fqn kind => s!"Type {fqn} is a {kind.name}, not a class"
  | .inheritanceCycle cycle => "Cyclic inheritance detected: " ++ " -> ".intercalate cycle
  | .extendsItself className => s!"Class {className} cannot extend itself"
  | .extendsOtherKind kind className parentKind parent =>
    s!"{kind.rootName} {className} cannot extend {parentKind.rootName} {parent}"
  | .extendsNoClass className parent parentKind =>
    s!"Class {className} cannot extend {parent}: it is a {parentKind.name}, not a class"
  | other => other.messageOfField

end Illegality

/-- Where an illegal model was found: the file and the place in it, as far as they are known. -/
structure Site where
  file : Option String
  location : Option Location
  deriving DecidableEq, Repr

namespace Site

/-- No file and no place. -/
def unknown : Site := ⟨none, none⟩

/-- The text of a site, which follows a message. -/
def render (site : Site) : String :=
  match site.file, site.location with
  | some file, some location => s!" File '{file}' {location.render}"
  | some file, none => s!" File '{file}'"
  | none, some location => s!" ({location.render})"
  | none, none => ""

end Site

end DomainModels
