import DomainModels.Schema.ModelFile

/-!
The type index: what the classes and the maps of all loaded models come to when their references
are resolved.

Every class has its super type, its properties together with the inherited ones, and the field that
identifies it. The index answers which class can stand for which other one.
-/

namespace DomainModels

/-- The loaded model files, by their namespaces. -/
abbrev ModelFiles : Type := Table ModelFile

/-- What a property holds, after its reference was resolved. A scalar stands for the type of its
values. -/
inductive ResolvedType where
  | value (type : ValueType)
  | scalar (fqn : String) (type : ValueType)
  | declared (fqn : String) (default : Option String)
  | relationship (fqn : String)

namespace ResolvedType

/-- The type of primitive values. -/
def value? : ResolvedType → Option ValueType
  | .value type | .scalar _ type => some type
  | _ => none

/-- The declaration whose instances are held or pointed to. -/
def target? : ResolvedType → Option String
  | .declared fqn _ | .relationship fqn => some fqn
  | _ => none

def isRelationship : ResolvedType → Bool
  | .relationship _ => true
  | _ => false

/-- The name of the type in messages. -/
def label : ResolvedType → String
  | .value type | .scalar _ type => type.primitive.name
  | .declared fqn _ | .relationship fqn => fqn

end ResolvedType

/-- A property whose type is resolved, with the class or the map that declares it. -/
structure ResolvedProperty where
  property : Property
  owner : String
  type : ResolvedType

namespace ResolvedProperty

def name (p : ResolvedProperty) : String := p.property.name

def isArray (p : ResolvedProperty) : Bool := p.property.isArray

def isOptional (p : ResolvedProperty) : Bool := p.property.isOptional

/-- The name of the type of one element. -/
def itemLabel (p : ResolvedProperty) : String := p.type.label

/-- The name of the type in messages; arrays are marked. -/
def label (p : ResolvedProperty) : String :=
  if p.isArray then p.itemLabel ++ "[]" else p.itemLabel

end ResolvedProperty

/-- A class with all of its properties: its own in the order of the declaration, those that the
system adds, and the inherited ones. -/
structure ResolvedClass where
  fqn : String
  name : String
  space : String
  kind : ClassKind
  isAbstract : Bool
  superType : Option String
  properties : List ResolvedProperty
  identifier : Option String
  identifierOwner : Option String
  decorators : List Metamodel.Decorator

namespace ResolvedClass

def property? (c : ResolvedClass) (name : String) : Option ResolvedProperty :=
  c.properties.find? (·.name = name)

/-- The properties that the class itself introduces. -/
def ownProperties (c : ResolvedClass) : List ResolvedProperty :=
  c.properties.filter (·.owner = c.fqn)

def isIdentified (c : ResolvedClass) : Bool := c.identifier.isSome

/-- Whether a declared field identifies the instances. -/
def isExplicitlyIdentified (c : ResolvedClass) : Bool :=
  match c.identifier with
  | some id => id ≠ identifierField
  | none => false

def isTimestamped (c : ResolvedClass) : Bool := c.kind.isTimestamped

end ResolvedClass

/-- The properties that stand for the keys and the values of a map. -/
structure ResolvedMap where
  fqn : String
  key : ResolvedProperty
  value : ResolvedProperty

/-- The classes and the maps of a set of model files. The classes come in the order of the files
and their declarations. -/
structure TypeIndex where
  classes : List ResolvedClass
  maps : List ResolvedMap

namespace TypeIndex

/-- The class of a name. -/
def class? (index : TypeIndex) (fqn : String) : Option ResolvedClass :=
  index.classes.find? (·.fqn = fqn)

/-- The map of a name. -/
def map? (index : TypeIndex) (fqn : String) : Option ResolvedMap :=
  index.maps.find? (·.fqn = fqn)

/-- The super type of an indexed class. -/
def superType? (index : TypeIndex) (fqn : String) : Option String :=
  (index.class? fqn).bind (·.superType)

/-- A name followed by at most `steps` super types. -/
def superChainWithin (index : TypeIndex) : Nat → String → List String
  | 0, fqn => [fqn]
  | steps + 1, fqn =>
    match index.superType? fqn with
    | some superType => fqn :: index.superChainWithin steps superType
    | none => [fqn]

/-- A name followed by its super types. No class is its own ancestor, so that there are at most as
many of them as there are classes. -/
def superChain (index : TypeIndex) (fqn : String) : List String :=
  index.superChainWithin index.classes.length fqn

/-- Whether a type is another one or a descendant of it. -/
def isAssignable (index : TypeIndex) (sub super : String) : Bool :=
  (index.superChain sub).contains super

/-- The classes that directly extend a class, in the order of the index. -/
def subclasses (index : TypeIndex) (fqn : String) : List ResolvedClass :=
  if (index.class? fqn).isSome then index.classes.filter (·.superType = some fqn) else []

/-- A class and its descendants of at most `depth` generations, each class before its
descendants. -/
def familyWithin (index : TypeIndex) : Nat → ResolvedClass → List ResolvedClass
  | 0, c => [c]
  | depth + 1, c => c :: (index.subclasses c.fqn).flatMap (index.familyWithin depth)

/-- The classes whose instances can stand where a class is declared: the class itself, and its
descendants depth first. -/
def assignableClasses (index : TypeIndex) (fqn : String) : List ResolvedClass :=
  match index.class? fqn with
  | some c => index.familyWithin index.classes.length c
  | none => []

end TypeIndex

end DomainModels
