import DomainModels.Generator.Source
import DomainModels.Instance.Factory

/-!
Generating instances of classes.

An abstract class is replaced by its first concrete descendant. The classes of the instances around
a place are kept in a list: a required property that would nest an instance inside one of its own
class is a fault, an optional one is left out, and an array or a map stays empty.
-/

namespace DomainModels

/-- What instances are generated with. -/
structure Generator (σ : Type) where
  registry : Registry
  now : DateTime
  source : ValueSource σ
  includeOptional : Bool

namespace Generator

variable {σ : Type}

/-- Generating something while the source goes on. -/
abbrev Drawing (σ α : Type) : Type := StateT σ (Except Failure) α

/-- A value of the source. -/
def draw {α : Type} (value : StateM σ α) : Drawing σ α := fun s => .ok (value.run s)

/-- The class itself, or its first descendant that is not abstract. -/
def concrete (r : Registry) (fqn : String) : Except Failure ResolvedClass := do
  let c ← r.resolvedClass fqn
  if !c.isAbstract then return c
  match (r.index.assignableClasses fqn).find? (!·.isAbstract) with
  | some c => return c
  | none => throw (.ungenerable (.noConcreteType fqn))

/-- Whether a property holds instances of a class that is being generated. -/
def reenters (r : Registry) (stack : List String) (p : ResolvedProperty) : Bool :=
  match p.type with
  | .declared target _ =>
    match r.getType target with
    | .ok d =>
      match d.class?, concrete r target with
      | some _, .ok c => stack.contains c.fqn
      | _, _ => false
    | .error _ => false
  | _ => false

/-- A primitive value of a type. -/
def drawValue (g : Generator σ) (type : ValueType) : Drawing σ Value :=
  draw <| match type with
    | .string v _ => Value.string <$> g.source.string v
    | .boolean _ => Value.boolean <$> g.source.boolean
    | .integer v _ => Value.integer <$> g.source.integer v
    | .long v _ => Value.long <$> g.source.long v
    | .double v _ => Value.double <$> g.source.double v
    | .dateTime _ => Value.dateTime <$> g.source.dateTime

/-- The validator of the identifiers of a class. -/
def identifierValidator? (c : ResolvedClass) (field : String) : Option TextValidator := do
  let p ← c.property? field
  let type ← p.type.value?
  type.textValidator?

/-- A pointer to an instance of a class. -/
def drawPointer (g : Generator σ) (target : String) : Drawing σ Value := do
  let c ← concrete g.registry target
  let id ← draw (g.source.identifier (identifierValidator? c (c.identifier.getD "")))
  let pointer ← g.registry.newRelationship c.space c.name id
  return .relationship pointer

/-- One of the values of an enumeration. -/
def drawEnum (g : Generator σ) (fqn : String) (values : List EnumValue) : Drawing σ Value := do
  if values.isEmpty then throw (.ungenerable (.emptyEnum fqn))
  let i ← draw (g.source.enumIndex values.length)
  match values[i % values.length]? with
  | some value => return .enum value.name
  | none => throw (.ungenerable (.emptyEnum fqn))

/-- The results of an action that is taken so many times. -/
def times {α : Type} (action : Drawing σ α) : Nat → Drawing σ (List α)
  | 0 => return []
  | count + 1 => do
    let first ← action
    return first :: (← times action count)

/-- Makes one item of a property, among instances of the given classes. -/
abbrev ItemMaker (σ : Type) : Type := List String → ResolvedProperty → Drawing σ Value

/-- The value of a property, or none where an optional property would nest a class in itself. -/
def propertyValue (g : Generator σ) (item : ItemMaker σ) (stack : List String)
    (p : ResolvedProperty) : Drawing σ (Option Value) := do
  let nested := reenters g.registry stack p
  if p.isArray then
    if nested then return some (.array [])
    let count ← draw g.source.arrayLength
    return some (.array (← times (item stack p) count))
  else if nested then
    if p.isOptional then return none
    throw (.ungenerable .recursiveModel)
  else return some (← item stack p)

/-- Whether the generator gives a value to a property: the identifier and the names of the system
are set already, and optional properties may be left out. -/
def isDrawn (g : Generator σ) (c : ResolvedClass) (p : ResolvedProperty) : Bool :=
  !isSystemName p.name && c.identifier ≠ some p.name && (!p.isOptional || g.includeOptional)

/-- Gives values to the properties that have none. -/
def populate (g : Generator σ) (item : ItemMaker σ) (stack : List String) (c : ResolvedClass) :
    List ResolvedProperty → Resource → Drawing σ Resource
  | [], resource => return resource
  | p :: rest, resource => do
    if g.isDrawn c p && !resource.contains p.name then
      match ← propertyValue g item stack p with
      | some value => populate g item stack c rest (resource.set p.name value)
      | none => populate g item stack c rest resource
    else populate g item stack c rest resource

/-- An instance of a declared class. -/
def drawInstance (g : Generator σ) (item : ItemMaker σ) (stack : List String)
    (declared : String) : Drawing σ Resource := do
  let c ← concrete g.registry declared
  let resource ← match c.identifier with
    | some field => do
      let id ← draw (g.source.identifier (identifierValidator? c field))
      g.registry.newResource g.now c.space c.name id
    | none => g.registry.newConcept g.now c.space c.name
  populate g item (c.fqn :: stack) c c.properties resource

/-- A map, which stays empty if its values would nest a class in itself. -/
def drawMap (g : Generator σ) (item : ItemMaker σ) (stack : List String) (target : String) :
    Drawing σ Value := do
  let m ← g.registry.resolvedMap target
  match m.key.type.value? with
  | none => throw (.ungenerable (.noMapKey target))
  | some keyType =>
    let count ← if reenters g.registry stack m.value then pure 0 else draw g.source.arrayLength
    let entries ← times (do return (← g.drawValue keyType, ← item stack m.value)) count
    return .map entries

/-- One item of the type of a property. Instances and maps are nested at most as deep as the first
argument says. -/
def drawItem (g : Generator σ) : Nat → ItemMaker σ
  | 0, _, _ => throw (.ungenerable .exhausted)
  | depth + 1, stack, p =>
    match p.type with
    | .value type | .scalar _ type => g.drawValue type
    | .relationship target => g.drawPointer target
    | .declared target _ => do
      match (← g.registry.getType target).body with
      | .classBody _ => return .concept (← g.drawInstance (g.drawItem depth) stack target)
      | .enumBody values => g.drawEnum target values
      | .mapBody .. => g.drawMap (g.drawItem depth) stack target
      | .scalarBody _ => throw (.ungenerable (.boxedScalar target p.name))

/-- How deep instances and maps can be nested when no map is nested in itself: between two of the
classes each map comes once. -/
def nestingBound (index : TypeIndex) : Nat :=
  (index.classes.length + 1) * (index.maps.length + 1) + 1

/-- An instance of a type among instances and maps that are nested at most as deep as the first
argument says, and the state of the source after it. -/
def generateWithin (g : Generator σ) (depth : Nat) (space typeName : String) (state : σ) :
    Except Failure (Resource × σ) :=
  (g.drawInstance (g.drawItem depth) [] (qualify space typeName)).run state

section

variable {α : Type} (attempt : Nat → Except Failure α)

/-- The outcome of the first attempt for which the depth is enough. Each depth is a thousand times
the one before. Where none is enough, the attempts never end. -/
def deepen : ReaderT Nat Option (Except Failure α) := fun depth =>
  match attempt depth with
  | .error (.ungenerable .exhausted) => deepen.run (1000 * depth)
  | outcome => some outcome
partial_fixpoint

end

/-- An instance of a type, and the state of the source after it, if generating ends. It does not
where maps are nested in themselves and the source keeps filling them. -/
def generateFrom? (g : Generator σ) (space typeName : String) (state : σ) :
    Option (Except Failure (Resource × σ)) :=
  deepen (g.generateWithin · space typeName state) (nestingBound g.registry.index)

/-- An instance of a type, and the state of the source after it. The failure stands for generating
that never ends. -/
def generateFrom (g : Generator σ) (space typeName : String) (state : σ) :
    Except Failure (Resource × σ) :=
  (g.generateFrom? space typeName state).getD (.error (.ungenerable .exhausted))

/-- An instance of a type. -/
def generate (g : Generator σ) (space typeName : String) (state : σ) : Except Failure Resource :=
  (g.generateFrom space typeName state).map (·.1)

end Generator

end DomainModels
