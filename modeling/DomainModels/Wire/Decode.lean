import DomainModels.Instance.Check
import DomainModels.Instance.Factory
import DomainModels.Wire.Options

/-!
Reading instances from JSON trees.

The declared types say what is expected at each place of the tree. Members whose value is null count
as absent. An object that stands for an instance may name its class, which then has to be the
declared one or a descendant of it.
-/

namespace DomainModels

/-- What instances are read with: the registry of their types, the time for new time stamps, and the
options. -/
structure Decoder where
  registry : Registry
  now : DateTime
  options : DecodeOptions

namespace Decoder

/-- The primitive value that a tree stands for. -/
def primitive? (d : Decoder) (type : PrimitiveType) (json : Json) : Option Value :=
  match type with
  | .string => json.string?.map .string
  | .boolean => json.bool?.map .boolean
  | .integer => (json.number?.bind Number.toInt64?).map .integer
  | .long => (json.number?.bind Number.toInt64?).map .long
  | .double => json.number?.map fun n => .double n.toFloat
  | .dateTime =>
    (json.string?.bind fun text =>
      DateTime.parse? text d.options.strictDateTimes d.options.utcOffset).map .dateTime

/-- Reads a primitive value, and checks it against its type. -/
def decodeValue (d : Decoder) (type : ValueType) (path : Path) (json : Json) :
    Except Failure Value :=
  match d.primitive? type.primitive json with
  | none => .error (.wrongType path type.primitive.name)
  | some value => do
    if d.options.validate then type.check path value
    return value

/-- Reads the name of a value of an enumeration. -/
def decodeEnum (d : Decoder) (fqn : String) (values : List EnumValue) (path : Path) (json : Json) :
    Except Failure Value :=
  match json.string? with
  | none => .error (.wrongType path fqn)
  | some name =>
    if d.options.validate && !hasEnumValue values name then
      .error (.invalidAt path (.notAnEnumValue name fqn))
    else .ok (.enum name)

/-- Reads the text of a pointer to an instance of `declared`. -/
def decodePointer (d : Decoder) (declared : String) (path : Path) (text : String) :
    Except Failure Value :=
  let (space, name) := (splitQualified declared).getD ("", declared)
  match Relationship.ofUri text space name with
  | .error fault => .error (.invalidAt path (.badPointer fault))
  | .ok pointer =>
    if d.options.validate && !d.registry.index.isAssignable pointer.fqn declared then
      .error (.invalidAt path (.pointsElsewhere pointer.fqn declared))
    else .ok (.relationship pointer)

/-! ## Members of instances -/

/-- Members whose names belong to the system and that the class does not have. -/
def isReservedMember (c : ResolvedClass) (member : String × Json) : Bool :=
  !member.2.isNull && !([classKey, idKey, identifierField].contains member.1)
    && !(member.1 = timestampField && c.isTimestamped) && isSystemName member.1

/-- Members that the class does not declare. -/
def isUndeclaredMember (c : ResolvedClass) (member : String × Json) : Bool :=
  !member.2.isNull && !isSystemName member.1 && (c.property? member.1).isNone

/-- Refuses members that are reserved or not declared. -/
def checkMembers (c : ResolvedClass) (path : Path) (members : List (String × Json)) :
    Except Failure Unit :=
  match (members.filter (isReservedMember c)).map (·.1) with
  | name :: names => .error (.invalidAt path (.reservedMembers c.fqn (name :: names)))
  | [] =>
    match (members.filter (isUndeclaredMember c)).map (·.1) with
    | name :: names => .error (.invalidAt path (.undeclaredMembers c.fqn (name :: names)))
    | [] => .ok ()

/-- Where a declared field identifies the instances, the identifier of the system is no part of
them. -/
def isShadowed (c : ResolvedClass) (p : ResolvedProperty) : Bool :=
  p.name = identifierField && c.isExplicitlyIdentified

/-- The instance that members are read into. -/
def newInstance (d : Decoder) (c : ResolvedClass) (members : List (String × Json)) :
    Except Failure Resource :=
  match c.identifier with
  | some field =>
    let id := ((members.lookup field).bind Json.string?).getD ""
    d.registry.newResource d.now c.space c.name id
  | none => d.registry.newConcept d.now c.space c.name

/-- Refuses an instance that lacks a required value or whose identifier is empty. -/
def checkComplete (c : ResolvedClass) (path : Path) (resource : Resource) :
    Except Failure Unit := do
  c.properties.forM fun p =>
    if p.isOptional || resource.contains p.name || isShadowed c p then .ok ()
    else .error (.invalidAt (path.field p.name) (.missingValue c.fqn p.name))
  if c.isIdentified && (resource.identifier?.getD "").isEmpty then
    throw (.invalidAt path (.emptyIdentifier c.fqn))

/-! ## Trees -/

mutual

/-- Reads an instance of the class of a name. -/
def decodeResource (d : Decoder) (fqn : String) (path : Path) (members : List (String × Json)) :
    Except Failure Resource := do
  let c ← d.registry.resolvedClass fqn
  if c.isAbstract then throw (.invalidAt path (.abstractInTree fqn))
  checkMembers c path members
  let resource ← d.newInstance c members
  let resource ← decodeMembers d c path members resource c.properties
  if d.options.validate then checkComplete c path resource
  return resource
termination_by (sizeOf members, 2, 0)

/-- Reads the members for properties of a class into an instance. -/
def decodeMembers (d : Decoder) (c : ResolvedClass) (path : Path) (members : List (String × Json))
    (resource : Resource) : List ResolvedProperty → Except Failure Resource
  | [] => .ok resource
  | p :: rest =>
    if isShadowed c p then decodeMembers d c path members resource rest
    else
      match _ : members.lookup p.name with
      | none | some .null => decodeMembers d c path members resource rest
      | some json => do
        let value ← decodeProperty d p (path.field p.name) json
        decodeMembers d c path members (resource.set p.name value) rest
termination_by properties => (sizeOf members, 1, properties.length)
decreasing_by
  · exact Prod.Lex.right _ (Prod.Lex.right _ (by simp))
  · exact Prod.Lex.right _ (Prod.Lex.right _ (by simp))
  · exact Prod.Lex.right _ (Prod.Lex.right _ (by simp))
  · exact Prod.Lex.left _ _ (Json.sizeOf_lookup ‹members.lookup p.name = some _›)
  · exact Prod.Lex.right _ (Prod.Lex.right _ (by simp))

/-- Reads a property, which is an array of items or one item. -/
def decodeProperty (d : Decoder) (p : ResolvedProperty) (path : Path) (json : Json) :
    Except Failure Value :=
  if p.isArray then
    match json with
    | .array items => .array <$> decodeItems d p path 0 items
    | _ => .error (.wrongType path p.label)
  else decodeItem d p path json
termination_by (sizeOf json, 2, 0)

/-- Reads the items of an array, from the one at place `i` on. -/
def decodeItems (d : Decoder) (p : ResolvedProperty) (path : Path) (i : Nat) :
    List Json → Except Failure (List Value)
  | [] => .ok []
  | json :: rest => do
    let value ← decodeItem d p (path.index i) json
    return value :: (← decodeItems d p path (i + 1) rest)
termination_by items => (sizeOf items, 0, 0)

/-- Reads one item of the type of a property. -/
def decodeItem (d : Decoder) (p : ResolvedProperty) (path : Path) (json : Json) :
    Except Failure Value :=
  match p.type with
  | .value type | .scalar _ type => d.decodeValue type path json
  | .relationship target =>
    match json with
    | .string text => d.decodePointer target path text
    | .object members =>
      if d.options.acceptResources then .concept <$> decodeNested d target path members
      else .error (.invalidAt path (.noPointer target))
    | _ => .error (.invalidAt path (.noPointer target))
  | .declared target _ => do
    match (← d.registry.getType target).body, json with
    | .classBody _, .object members => .concept <$> decodeNested d target path members
    | .enumBody values, json => d.decodeEnum target values path json
    | .mapBody .., .object members => decodeMap d target path members
    | .scalarBody _, _ => throw (.invalidAt path (.boxedScalar target))
    | _, _ => throw (.wrongType path target)
termination_by (sizeOf json, 1, 0)

/-- Reads an instance where one of `declared` is expected. -/
def decodeNested (d : Decoder) (declared : String) (path : Path) (members : List (String × Json)) :
    Except Failure Resource :=
  let fqn := ((members.lookup classKey).bind Json.string?).getD declared
  if d.registry.index.isAssignable fqn declared then decodeResource d fqn path members
  else .error (.invalidAt path (.notAssignable fqn declared))
termination_by (sizeOf members, 3, 0)

/-- Reads the entries of a map, whose keys are the names of the members. -/
def decodeMap (d : Decoder) (target : String) (path : Path) (members : List (String × Json)) :
    Except Failure Value := do
  let m ← d.registry.resolvedMap target
  match m.key.type.value? with
  | none => throw (.wrongType path target)
  | some keyType => .map <$> decodeEntries d keyType m.value path members
termination_by (sizeOf members, 1, 0)

/-- Reads members as the entries of a map. Members whose names belong to the system are no
entries. -/
def decodeEntries (d : Decoder) (keyType : ValueType) (value : ResolvedProperty) (path : Path) :
    List (String × Json) → Except Failure (List (Value × Value))
  | [] => .ok []
  | (name, json) :: rest =>
    if isSystemName name then decodeEntries d keyType value path rest
    else do
      let key ← d.decodeValue keyType (path.field name) (.string name)
      let item ← decodeItem d value (path.field name) json
      return (key, item) :: (← decodeEntries d keyType value path rest)
termination_by members => (sizeOf members, 0, 0)

end

/-- Reads a tree, which has to be an object that names its class. -/
def decode (d : Decoder) (json : Json) : Except Failure Resource :=
  match json with
  | .object members =>
    match (members.lookup classKey).bind Json.string? with
    | some fqn => d.decodeResource fqn .root members
    | none => .error (.invalid .noClass none)
  | _ => .error (.invalid .noClass none)

end Decoder

end DomainModels
