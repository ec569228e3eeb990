import DomainModels.DateTime.Parser
import DomainModels.Instance.Check
import DomainModels.Registry.Basic

/-!
Making instances of the classes of a registry.

A new instance has the defaults that its class declares. Transactions and events are stamped with
the given time.
-/

namespace DomainModels

/-- The default of a primitive type for a property of a name. That of an instant is read from its
text. -/
def ValueType.makeDefault (type : ValueType) (name : String) : Except Failure (Option Value) :=
  match type with
  | .dateTime (some text) =>
    match DateTime.parse? text false 0 with
    | some t => .ok (some (.dateTime t))
    | none => .error (.illegalAnywhere (.badDateTimeDefault text name))
  | type => .ok type.default?

/-- The default of one item of a property of a name. -/
def ResolvedType.makeDefault (type : ResolvedType) (name : String) :
    Except Failure (Option Value) :=
  match type with
  | .value type | .scalar _ type => type.makeDefault name
  | .declared _ default => .ok (default.map .enum)
  | .relationship _ => .ok none

/-- The default of a property as a value. An array holds the default as its only element. -/
def ResolvedProperty.default? (p : ResolvedProperty) : Except Failure (Option Value) := do
  let item ← p.type.makeDefault p.name
  return if p.isArray then item.map fun value => .array [value] else item

namespace Registry

/-- The class of a name, if it can have instances of its own. -/
def instantiable (r : Registry) (space typeName : String) : Except Failure ResolvedClass := do
  let fqn := qualify space typeName
  let c ← r.resolvedClass fqn
  if c.isAbstract then throw (.invalid (.abstractType fqn) none)
  return c

/-- Sets the defaults of properties. -/
def setDefaults : List ResolvedProperty → Resource → Except Failure Resource
  | [], resource => .ok resource
  | p :: rest, resource => do
    match ← p.default? with
    | some value => setDefaults rest (resource.set p.name value)
    | none => setDefaults rest resource

/-- Sets the defaults of a class, and the time stamp if it has one. -/
def fillIn (c : ResolvedClass) (now : DateTime) (resource : Resource) :
    Except Failure Resource := do
  let resource ← setDefaults c.properties resource
  return if c.isTimestamped then resource.set timestampField (.dateTime now) else resource

/-- A new instance of an identified class. -/
def newResource (r : Registry) (now : DateTime) (space typeName id : String) :
    Except Failure Resource := do
  let c ← r.instantiable space typeName
  if !c.isIdentified then throw (.invalid (.unidentifiedType c.fqn) none)
  let resource ← fillIn c now (.empty space typeName c.identifier)
  resource.setIdentifier id

/-- A new instance of a class without an identifier. -/
def newConcept (r : Registry) (now : DateTime) (space typeName : String) :
    Except Failure Resource := do
  let c ← r.instantiable space typeName
  if c.isIdentified then throw (.invalid (.identifiedType c.fqn) none)
  fillIn c now (.empty space typeName none)

/-- A pointer to an instance of an identified class. -/
def newRelationship (r : Registry) (space typeName id : String) : Except Failure Relationship := do
  let fqn := qualify space typeName
  let c ← r.resolvedClass fqn
  if !c.isIdentified then throw (.invalid (.pointerToUnidentified fqn) none)
  return ⟨space, typeName, id⟩

end Registry

end DomainModels
