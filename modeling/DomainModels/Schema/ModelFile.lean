import DomainModels.Digest
import DomainModels.Failure.Basic
import DomainModels.Json.Writer
import DomainModels.Metamodel.Writer
import DomainModels.Schema.Basic
import DomainModels.Table

/-!
Model files: the declarations of one namespace together with what they import.

`ModelFile.ofModel` makes the checks that need no other model. They run in the order of the model:
the namespace, the imports, the declarations one by one, and last the decorators of the model.
-/

namespace DomainModels

open Metamodel (TypeName Decorator Import ImportScope Model)

/-- Makes a decorator of the one that is written at a target. A factory that has nothing to say
gives none, and the next one is asked. -/
abbrev DecoratorFactory : Type :=
  DecoratorTarget → Decorator → Except Failure (Option Decorator)

/-- The declarations of one namespace. -/
structure ModelFile where
  space : String
  version : Namespace
  fileName : Option String
  checksum : String
  model : Model
  declarations : List Declaration
  explicitImports : Table String
  wildcardImports : List String
  decorators : List Decorator

/-- What the parts of a model are checked in: the namespace, the file and the factories. -/
structure FileContext where
  space : String
  fileName : Option String
  factories : List DecoratorFactory

namespace FileContext

/-- An illegal model at a place of the file. -/
def illegal (ctx : FileContext) (location : Option Location) (cause : Illegality) : Failure :=
  .illegal cause ⟨ctx.fileName, location⟩

/-! ## Decorators -/

/-- Asks the factories in turn. A decorator that none of them makes stays as it is written. -/
def makeDecorator (target : DecoratorTarget) (node : Decorator) :
    List DecoratorFactory → Except Failure Decorator
  | [] => .ok node
  | factory :: rest => do
    match ← factory target node with
    | some made => return made
    | none => makeDecorator target node rest

/-- The decorators of one element, whose names have to differ from each other and from `seen`. -/
def makeDecorators (ctx : FileContext) (target : DecoratorTarget) (seen : List String) :
    List Decorator → Except Failure (List Decorator)
  | [] => .ok []
  | node :: rest => do
    if seen.contains node.name then
      throw (ctx.illegal node.location (.duplicateDecorator node.name target))
    let made ← makeDecorator target node ctx.factories
    return made :: (← ctx.makeDecorators target (node.name :: seen) rest)

/-! ## Types of values -/

/-- A result whose fault is an illegal model at a place. -/
def locate {ε α : Type} (ctx : FileContext) (location : Option Location)
    (cause : ε → Illegality) (result : Except ε α) : Except Failure α :=
  result.mapError fun fault => ctx.illegal location (cause fault)

/-- Checks the default of a text or a number, if there is a validator for it. -/
def checkDefault {α V : Type} (ctx : FileContext) (location : Option Location)
    (cause : Violation → Illegality) (check : V → α → Except Violation Unit) (validator : Option V)
    (default : Option α) : Except Failure Unit :=
  match validator, default with
  | some v, some value => ctx.locate location cause (check v value)
  | _, _ => .ok ()

/-- The type of the values of a field or a scalar called `name`, with its validator built and its
default checked. -/
def makeValueType (ctx : FileContext) (name : String) (location : Option Location)
    (cause : Violation → Illegality) : Metamodel.Primitive → Except Failure ValueType
  | .string default pattern length => do
    let v ← ctx.locate location .badValidator (TextValidator.ofNode? pattern length)
    ctx.checkDefault location cause (TextValidator.check · name) v default
    return .string v default
  | .integer default bounds => do
    let v ← ctx.locate location .badValidator (bounds.mapM NumberValidator.ofInt64)
    ctx.checkDefault location cause (NumberValidator.check · name) v (default.map Number.ofInt64)
    return .integer v default
  | .long default bounds => do
    let v ← ctx.locate location .badValidator (bounds.mapM NumberValidator.ofInt64)
    ctx.checkDefault location cause (NumberValidator.check · name) v (default.map Number.ofInt64)
    return .long v default
  | .double default bounds => do
    let v ← ctx.locate location .badValidator (bounds.mapM NumberValidator.ofDouble)
    ctx.checkDefault location cause (NumberValidator.check · name) v default
    return .double v default
  | .boolean default => .ok (.boolean default)

/-! ## Properties and declarations -/

def makePropertyType (ctx : FileContext) (name : String) (location : Option Location) :
    Metamodel.PropertyType → Except Failure PropertyType
  | .primitive type => .value <$> ctx.makeValueType name location (.badFieldDefault name) type
  | .dateTime => .ok (.value (.dateTime none))
  | .object type default => .ok (.declared type default)
  | .relationship type => .ok (.relationship type)

/-- The properties of a class, none of which may be a value of an enumeration. -/
def makeProperties (ctx : FileContext) (owner : String) (location : Option Location) :
    List Metamodel.Property → Except Failure (List Property)
  | [] => .ok []
  | node :: rest => do
    match node.shape with
    | .enumValue => throw (ctx.illegal location (.enumValueInClass owner node.name))
    | .typed type isArray isOptional =>
      let type ← ctx.makePropertyType node.name node.location type
      let target := DecoratorTarget.ofProperty ctx.space owner node.name
      let decorators ← ctx.makeDecorators target [] node.decorators
      let property : Property :=
        ⟨node.name, type, isArray, isOptional, decorators, node.location⟩
      return property :: (← ctx.makeProperties owner location rest)

/-- The values of an enumeration, whose names have to differ from each other and from `seen`. -/
def makeEnumValues (ctx : FileContext) (owner : String) (location : Option Location)
    (seen : List String) : List Metamodel.Property → Except Failure (List EnumValue)
  | [] => .ok []
  | node :: rest => do
    match node.shape with
    | .typed .. => throw (ctx.illegal location (.fieldInEnum owner node.name))
    | .enumValue =>
      if seen.contains node.name then
        throw (ctx.illegal (node.location <|> location) (.duplicateEnumValue node.name owner))
      let target := DecoratorTarget.ofProperty ctx.space owner node.name
      let decorators ← ctx.makeDecorators target [] node.decorators
      let value : EnumValue := ⟨node.name, decorators, node.location⟩
      return value :: (← ctx.makeEnumValues owner location (node.name :: seen) rest)

def keyType : Metamodel.MapKeyType → PropertyType
  | .string => .value (.plain .string)
  | .dateTime => .value (.plain .dateTime)
  | .integer => .value (.plain .integer)
  | .long => .value (.plain .long)
  | .double => .value (.plain .double)
  | .boolean => .value (.plain .boolean)
  | .object type => .declared type none

def valueType : Metamodel.MapValueType → PropertyType
  | .string => .value (.plain .string)
  | .integer => .value (.plain .integer)
  | .long => .value (.plain .long)
  | .double => .value (.plain .double)
  | .boolean => .value (.plain .boolean)
  | .dateTime => .value (.plain .dateTime)
  | .object type => .declared type none
  | .relationship type => .relationship type

def makeBody (ctx : FileContext) (node : Metamodel.Declaration) :
    Except Failure DeclarationBody :=
  match node.body with
  | .classBody kind isAbstract superType identified properties => do
    let properties ← ctx.makeProperties node.name node.location properties
    return .classBody ⟨kind, isAbstract, superType, identified, properties⟩
  | .enumBody properties => .enumBody <$> ctx.makeEnumValues node.name node.location [] properties
  | .mapBody key value => .ok (.mapBody (keyType key) (valueType value))
  | .scalarBody (.primitive type) =>
    .scalarBody <$> ctx.makeValueType node.name node.location (.badScalarDefault node.name) type
  | .scalarBody (.dateTime default) => .ok (.scalarBody (.dateTime default))

/-- A declaration, whose decorators are looked at after its body. -/
def makeDeclaration (ctx : FileContext) (node : Metamodel.Declaration) :
    Except Failure Declaration := do
  let body ← ctx.makeBody node
  let target := DecoratorTarget.ofDeclaration ctx.space node.name
  let decorators ← ctx.makeDecorators target [] node.decorators
  return ⟨node.name, ctx.space, body, decorators, node.location⟩

/-- The declarations of a model, whose names have to differ from each other, from `seen` and from
the types that are imported by name. -/
def makeDeclarations (ctx : FileContext) (imports : Table String) (seen : List String) :
    List Metamodel.Declaration → Except Failure (List Declaration)
  | [] => .ok []
  | node :: rest => do
    let declaration ← ctx.makeDeclaration node
    if seen.contains node.name then
      throw (ctx.illegal node.location (.duplicateDeclaration node.name))
    if let some imported := imports.find? node.name then
      throw (ctx.illegal node.location (.declaredAndImported node.name imported))
    return declaration :: (← ctx.makeDeclarations imports (node.name :: seen) rest)

/-! ## Imports -/

/-- Enters the types that an import names. One name may not stand for two types. -/
def bindNames (ctx : FileContext) (imported : String) (table : Table String) :
    List String → Except Failure (Table String)
  | [] => .ok table
  | name :: rest => do
    let fqn := qualify imported name
    if let some existing := table.find? name then
      if existing ≠ fqn then throw (ctx.illegal none (.conflictingImports fqn existing))
    ctx.bindNames imported (table.put name fqn) rest

/-- The types that are imported by name, and the namespaces of which every type is. -/
def bindImports (ctx : FileContext) (table : Table String) (wildcards : List String) :
    List Import → Except Failure (Table String × List String)
  | [] => .ok (table, wildcards)
  | node :: rest => do
    if let .error _ := Namespace.parseVersioned node.space then
      throw (ctx.illegal none (.unversionedImport node.space ctx.space))
    let wildcards := match node.scope with
      | .all => if wildcards.contains node.space then wildcards else wildcards ++ [node.space]
      | _ => wildcards
    let table ← ctx.bindNames node.space table node.scope.names
    ctx.bindImports table wildcards rest

end FileContext

namespace ModelFile

/-- The digest of the text of a model. -/
def checksumOf (model : Model) : String := Digest.ofText model.toJson.compact

/-- The model file of a model, if it passes the checks that concern it alone. -/
def ofModel (model : Model) (fileName : Option String) (factories : List DecoratorFactory) :
    Except Failure ModelFile := do
  let ctx : FileContext := ⟨model.space, fileName, factories⟩
  let version ← ctx.locate none .badNamespace (Namespace.parseVersioned model.space)
  let (explicit, wildcards) ← ctx.bindImports [] [] model.imports
  let declarations ← ctx.makeDeclarations explicit [] model.declarations
  let decorators ← ctx.makeDecorators (.ofModel model.space) [] model.decorators
  return {
    space := model.space, version, fileName, checksum := checksumOf model, model, declarations,
    explicitImports := explicit, wildcardImports := wildcards, decorators }

/-- The declaration of a name. -/
def declaration? (file : ModelFile) (name : String) : Option Declaration :=
  file.declarations.find? (·.name = name)

/-- The namespaces that a file imports, each with the place that its first import gives. -/
def importedSpaces (file : ModelFile) : List (String × Option String) :=
  file.model.imports.foldl
    (fun found node =>
      if found.any (·.1 = node.space) then found else found ++ [(node.space, node.uri)])
    []

/-- Every decorator of a file, in the order of the model. -/
def allDecorators (file : ModelFile) : List Decorator :=
  file.decorators ++ file.declarations.flatMap (·.allDecorators)

end ModelFile

end DomainModels
