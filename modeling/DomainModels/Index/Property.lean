import DomainModels.Index.Resolution

/-!
Resolving the types of properties and maps.
-/

namespace DomainModels

namespace ModelFile

/-- An illegal model at a place of a file. -/
def illegal (file : ModelFile) (location : Option Location) (cause : Illegality) : Failure :=
  .illegal cause ⟨file.fileName, location⟩

/-- Resolves a reference, with the failure that a caller reports. -/
def resolveOrFail (files : ModelFiles) (file : ModelFile) (type : Metamodel.TypeName) :
    Except Failure String :=
  (file.resolve files type).mapError Unresolved.toFailure

/-- Resolves the type of a property. A scalar is replaced by the type of its values, a default has
to be a value of the enumeration, and a relationship has to point to a class. -/
def resolveType (files : ModelFiles) (file : ModelFile) (p : Property) :
    Except Failure ResolvedType :=
  match p.type with
  | .value type => .ok (.value type)
  | .declared type default => do
    let target ← file.resolveOrFail files type
    match ModelFiles.body? files target with
    | some (.scalarBody type) => return .scalar target type
    | some (.enumBody values) =>
      if let some name := default then
        if !hasEnumValue values name then
          throw (file.illegal p.location (.badEnumDefault name p.name target))
      return .declared target default
    | _ => return .declared target default
  | .relationship type => do
    let target ← file.resolveOrFail files type
    match ModelFiles.body? files target with
    | some (.classBody _) => return .relationship target
    | _ => throw (file.illegal p.location (.relationshipToNoClass p.name target))

/-- Resolves a property of the class or the map called `owner`. -/
def resolveProperty (files : ModelFiles) (file : ModelFile) (owner : String) (p : Property) :
    Except Failure ResolvedProperty := do
  return ⟨p, owner, ← file.resolveType files p⟩

/-- Keys are texts or instants. -/
def isKeyType : Option ValueType → Bool
  | some (.string ..) | some (.dateTime _) => true
  | _ => false

/-- Resolves the keys and the values of a map. -/
def resolveMap (files : ModelFiles) (file : ModelFile) (d : Declaration)
    (key value : PropertyType) : Except Failure ResolvedMap := do
  let keyPart ← file.resolveProperty files d.fqn (d.mapPart mapKeyField key)
  if !isKeyType keyPart.type.value? then
    let label := match keyPart.type with
      | .scalar fqn _ => fqn
      | type => type.label
    throw (file.illegal d.location (.badMapKey label d.name))
  let valuePart ← file.resolveProperty files d.fqn (d.mapPart mapValueField value)
  return ⟨d.fqn, keyPart, valuePart⟩

end ModelFile

end DomainModels
