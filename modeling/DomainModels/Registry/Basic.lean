import DomainModels.Index.Build
import DomainModels.Schema.Root

/-!
Registries: the loaded model files together with their type index.

The root model is always loaded. What a registry is asked for is answered from its files, where
declarations are concerned, and from its index, where resolved classes and maps are.
-/

namespace DomainModels

/-- The loaded model files, the index of their types, and the factories of decorators for files that
are still to come. -/
structure Registry where
  files : ModelFiles
  index : TypeIndex
  factories : List DecoratorFactory

namespace Root

/-- A root class as the index holds it. -/
def resolvedClass (kind : ClassKind) (identified : Option Metamodel.Identified) : ResolvedClass :=
  let body : ClassBody := ⟨kind, true, none, identified, []⟩
  { fqn := kind.rootClass, name := kind.rootName, space := rootNamespace, kind, isAbstract := true
    superType := none
    properties := body.systemProperties kind.rootClass []
    identifier := identified.map fun _ => identifierField
    identifierOwner := identified.map fun _ => kind.rootClass
    decorators := [] }

/-- The files of a registry into which nothing has been loaded. -/
def files : ModelFiles := [(rootNamespace, file)]

/-- The index of the root classes. -/
def index : TypeIndex where
  classes :=
    [resolvedClass .concept none, resolvedClass .asset (some .system),
     resolvedClass .participant (some .system), resolvedClass .transaction none,
     resolvedClass .event none]
  maps := []

end Root

namespace Registry

/-- The registry that holds the root model alone. -/
def initial : Registry := ⟨Root.files, Root.index, []⟩

/-- Registers a factory for the decorators of files that are built from now on. -/
def addFactory (r : Registry) (factory : DecoratorFactory) : Registry :=
  { r with factories := r.factories ++ [factory] }

/-! ## Questions -/

/-- The file of a namespace. -/
def file? (r : Registry) (space : String) : Option ModelFile := Table.find? r.files space

/-- The files of the namespaces other than that of the root model. -/
def userFiles (r : Registry) : List ModelFile :=
  (Table.values r.files).filter (·.space ≠ rootNamespace)

/-- The namespaces other than that of the root model. -/
def userSpaces (r : Registry) : List String := (Table.keys r.files).filter (· ≠ rootNamespace)

/-- Whether the characters of a text occur in another one in their order. Case does not matter for
the letters of ASCII. -/
def isScatteredIn : List Char → List Char → Bool
  | [], _ => true
  | _ :: _, [] => false
  | c :: rest, d :: within =>
    if c.toLower = d.toLower then isScatteredIn rest within else isScatteredIn (c :: rest) within

/-- The name with the best score, the last one among equals. Names without a score do not count. -/
def suggest (score : String → Option Nat) (names : List String) : Option String :=
  let scored := names.filterMap fun name => (score name).map fun n => (n, name)
  let best := scored.foldl (fun best next =>
    if best.any (next.1 < ·.1) then best else some next) none
  best.map (·.2)

/-- The score of a declared name when another one was asked for. A name fits if the asked one is
scattered in it. How well it fits is not told apart: all names that fit have the same score. -/
def scatterScore (asked declared : String) : Option Nat :=
  if isScatteredIn asked.toList declared.toList then some asked.length else none

/-- A declared name that the asked one may stand for. -/
def suggestion? (file : ModelFile) (name : String) : Option String :=
  suggest (scatterScore name) (file.declarations.map (·.name))

/-- The declaration of a fully-qualified name. -/
def getType (r : Registry) (fqn : String) : Except Failure Declaration :=
  if (PrimitiveType.ofName? fqn).isSome then .error (.missing fqn (.primitive fqn))
  else
    match splitQualified fqn with
    | none => .error (.missing fqn (.unqualified fqn))
    | some (space, name) =>
      match r.file? space with
      | none => .error (.missing fqn (.unregistered space name))
      | some file =>
        match file.declaration? name with
        | some d => .ok d
        | none => .error (.missing fqn (.undeclaredIn name space (suggestion? file name)))

/-- The indexed class of a name. -/
def resolvedClass (r : Registry) (fqn : String) : Except Failure ResolvedClass :=
  match r.index.class? fqn with
  | some c => .ok c
  | none => do
    let d ← r.getType fqn
    match d.kind with
    | .ofClass _ => throw (.missing fqn (.brokenClass fqn))
    | kind => throw (.missing fqn (.notAClass fqn kind))

/-- The indexed map of a name. -/
def resolvedMap (r : Registry) (fqn : String) : Except Failure ResolvedMap :=
  match r.index.map? fqn with
  | some m => .ok m
  | none => do
    let d ← r.getType fqn
    match d.kind with
    | .map => throw (.missing fqn (.brokenMap fqn))
    | kind => throw (.missing fqn (.notAMap fqn kind))

end Registry

end DomainModels
