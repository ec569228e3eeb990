import DomainModels.Instance.Check
import DomainModels.Registry.Basic
import DomainModels.Wire.Options

/-!
Writing instances as JSON trees.

The object of an instance starts with its class and, where instances are deduplicated, its URI. The
values follow in the order in which the class lists its properties.
-/

namespace DomainModels

/-- What instances are written with: the registry of their types, and the options. -/
structure Encoder where
  registry : Registry
  options : EncodeOptions

namespace Encoder

/-- Writing a tree. The state lists the fully-qualified identifiers of the instances that have been
written as objects. -/
abbrev Writing (α : Type) : Type := StateT (List String) (Except Failure) α

/-- The tree of a primitive value. Without validation any primitive value is written where another
one is declared. -/
def encodeValue (e : Encoder) (type : ValueType) (path : Path) (value : Value) :
    Except Failure Json := do
  if e.options.validate then type.check path value
  match value with
  | .string text | .enum text => return .string text
  | .boolean b => return .bool b
  | .integer i | .long i => return .int i.toInt
  | .double x =>
    if x.isFinite then return .float x else throw (.invalidAt path .notFinite)
  | .dateTime t => return .string (t.render e.options.utcOffset)
  | _ => throw (.wrongType path type.primitive.name)

/-- The tree of a value of an enumeration. -/
def encodeEnum (e : Encoder) (fqn : String) (values : List EnumValue) (path : Path)
    (value : Value) : Except Failure Json :=
  match value with
  | .enum name | .string name =>
    if e.options.validate && !hasEnumValue values name then
      .error (.invalidAt path (.notAnEnumValue name fqn))
    else .ok (.string name)
  | _ => .error (.wrongType path fqn)

/-- The text of a pointer. -/
def pointerText (e : Encoder) (pointer : Relationship) : String :=
  if e.options.bareIdentifiers then pointer.id else pointer.toUri

/-- The tree of a pointer to an instance of `declared`. -/
def encodePointer (e : Encoder) (declared : String) (path : Path) (pointer : Relationship) :
    Except Failure Json :=
  if e.options.validate && !e.registry.index.isAssignable pointer.fqn declared then
    .error (.invalidAt path (.pointsElsewhere pointer.fqn declared))
  else .ok (.string (e.pointerText pointer))

/-- A pointer to an instance that has been written already. -/
def writtenPointer? (seen : List String) (resource : Resource) : Option Relationship :=
  resource.pointer?.filter fun pointer => seen.contains pointer.fullyQualifiedId

/-- Checks that an instance can stand where one of `declared` is expected, and that its class
declares all of its values. -/
def checkInstance (e : Encoder) (c : ResolvedClass) (declared : Option String) (path : Path)
    (resource : Resource) : Except Failure Unit := do
  if c.isAbstract then throw (.invalidAt path (.abstractInstance c.fqn))
  if let some expected := declared then
    if !e.registry.index.isAssignable c.fqn expected then
      throw (.invalidAt path (.notAssignable c.fqn expected))
  match resource.values.find? fun entry => (c.property? entry.1).isNone with
  | some (name, _) =>
    throw (.invalidAt (path.field name) (.undeclaredValue resource.label name c.fqn))
  | none => return ()

/-- The members that come before the values: the class, and the URI if instances are
deduplicated. -/
def headMembers (e : Encoder) (c : ResolvedClass) (resource : Resource) : List (String × Json) :=
  let uri := if e.options.deduplicate then resource.uri? else none
  (classKey, .string c.fqn) :: (uri.map fun text => (idKey, Json.string text)).toList

mutual

/-- Writes an instance where one of `declared` is expected, if anything is. -/
def encodeResource (e : Encoder) (declared : Option String) (path : Path) (resource : Resource) :
    Writing Json := do
  let c ← e.registry.resolvedClass resource.fqn
  if e.options.validate then e.checkInstance c declared path resource
  if let some id := resource.fullyQualifiedId? then modify fun seen => id :: seen
  let members ← encodeMembers e c path resource c.properties
  return .object (e.headMembers c resource ++ members)
termination_by (sizeOf resource, 2, 0)

/-- Writes the values that an instance holds for properties of its class. -/
def encodeMembers (e : Encoder) (c : ResolvedClass) (path : Path) (resource : Resource) :
    List ResolvedProperty → Writing (List (String × Json))
  | [] => return []
  | p :: rest => do
    if p.name = identifierField ∧ c.isExplicitlyIdentified then
      let members ← encodeMembers e c path resource rest
      return (resource.identifier?.map fun id => (p.name, Json.string id)).toList ++ members
    else
      match _ : resource.get? p.name with
      | none =>
        if e.options.validate && !p.isOptional then
          throw (.invalidAt (path.field p.name) (.missingValue resource.label p.name))
        encodeMembers e c path resource rest
      | some value =>
        let json ← encodeProperty e p (path.field p.name) value
        return (p.name, json) :: (← encodeMembers e c path resource rest)
termination_by properties => (sizeOf resource, 1, properties.length)
decreasing_by
  · exact Prod.Lex.right _ (Prod.Lex.right _ (by simp))
  · exact Prod.Lex.right _ (Prod.Lex.right _ (by simp))
  · exact Prod.Lex.left _ _ (Resource.sizeOf_get? ‹resource.get? p.name = some _›)
  · exact Prod.Lex.right _ (Prod.Lex.right _ (by simp))

/-- Writes a property, which is an array of items or one item. -/
def encodeProperty (e : Encoder) (p : ResolvedProperty) (path : Path) (value : Value) :
    Writing Json := do
  if p.isArray then
    match value with
    | .array items => return .array (← encodeItems e p path 0 items)
    | _ => throw (.wrongType path p.label)
  else encodeItem e p path value
termination_by (sizeOf value, 2, 0)

/-- Writes the items of an array, from the one at place `i` on. -/
def encodeItems (e : Encoder) (p : ResolvedProperty) (path : Path) (i : Nat) :
    List Value → Writing (List Json)
  | [] => return []
  | value :: rest => do
    let json ← encodeItem e p (path.index i) value
    return json :: (← encodeItems e p path (i + 1) rest)
termination_by items => (sizeOf items, 0, 0)

/-- Writes one item of the type of a property. -/
def encodeItem (e : Encoder) (p : ResolvedProperty) (path : Path) (value : Value) :
    Writing Json := do
  match p.type with
  | .value type | .scalar _ type => e.encodeValue type path value
  | .relationship target =>
    match value with
    | .relationship pointer => e.encodePointer target path pointer
    | .concept resource => encodePointee e target path resource
    | _ => throw (.wrongType path target)
  | .declared target _ =>
    match (← e.registry.getType target).body, value with
    | .classBody _, .concept resource =>
      let seen ← get
      match if e.options.deduplicate then writtenPointer? seen resource else none with
      | some pointer => return .string pointer.toUri
      | none => encodeResource e (some target) path resource
    | .enumBody values, value => e.encodeEnum target values path value
    | .mapBody .., .map entries => encodeMap e target path entries
    | .scalarBody _, _ => throw (.invalidAt path (.boxedScalar target))
    | _, _ => throw (.wrongType path target)
termination_by (sizeOf value, 1, 0)

/-- Writes an instance that stands where a pointer is declared. -/
def encodePointee (e : Encoder) (target : String) (path : Path) (resource : Resource) :
    Writing Json := do
  if e.options.pointToResources then
    match resource.pointer? with
    | some pointer => return .string (e.pointerText pointer)
    | none => throw (.invalidAt path .unpointable)
  else if !e.options.permitResources then throw (.invalidAt path (.embedded target))
  else
    match writtenPointer? (← get) resource with
    | some pointer => return .string (e.pointerText pointer)
    | none => encodeResource e (some target) path resource
termination_by (sizeOf resource, 3, 0)

/-- Writes a map as an object. -/
def encodeMap (e : Encoder) (target : String) (path : Path) (entries : List (Value × Value)) :
    Writing Json := do
  let m ← e.registry.resolvedMap target
  match m.key.type.value? with
  | none => throw (.wrongType path target)
  | some keyType => return .object (← encodeEntries e keyType m.value path [] entries)
termination_by (sizeOf entries, 1, 0)

/-- Writes the entries of a map after the given members. A key whose text has been written before
replaces the value of that member. -/
def encodeEntries (e : Encoder) (keyType : ValueType) (value : ResolvedProperty) (path : Path)
    (members : List (String × Json)) : List (Value × Value) → Writing (List (String × Json))
  | [] => return members
  | (key, item) :: rest => do
    match ← e.encodeValue keyType path key with
    | .string name =>
      let json ← encodeItem e value (path.field name) item
      encodeEntries e keyType value path (Json.insertMember name json members) rest
    | _ => throw (.wrongType path keyType.primitive.name)
termination_by entries => (sizeOf entries, 0, 0)

end

/-- The tree of an instance. -/
def encode (e : Encoder) (resource : Resource) : Except Failure Json :=
  (e.encodeResource none .root resource).run' []

end Encoder

end DomainModels
