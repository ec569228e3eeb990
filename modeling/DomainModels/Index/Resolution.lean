import DomainModels.Index.Basic

/-!
Resolving references to types.

A reference with a namespace names a declaration of that namespace. Any other one is looked up in
its own file, then among the types that are imported by name, then in the namespaces that are
imported as a whole, and last among the root types.
-/

namespace DomainModels

open Metamodel (TypeName)

namespace ModelFiles

/-- The declaration of a fully-qualified name, with its file. -/
def find? (files : ModelFiles) (fqn : String) : Option (ModelFile × Declaration) := do
  let (space, name) ← splitQualified fqn
  let file ← Table.find? files space
  let declaration ← file.declaration? name
  return (file, declaration)

/-- The kind and the parts of what a fully-qualified name declares. -/
def body? (files : ModelFiles) (fqn : String) : Option DeclarationBody :=
  (files.find? fqn).map fun found => found.2.body

/-- Whether a namespace declares a name. -/
def declares (files : ModelFiles) (space name : String) : Bool :=
  match Table.find? files space with
  | some file => (file.declaration? name).isSome
  | none => false

/-- The declarations of all files, in the order of the namespaces and of the files. -/
def declarations (files : ModelFiles) : List (ModelFile × Declaration) :=
  (Table.values files).flatMap fun file => file.declarations.map fun d => (file, d)

end ModelFiles

/-- A name that could not be resolved, and why. -/
structure Unresolved where
  name : String
  cause : Missing
  deriving DecidableEq, Repr

def Unresolved.toFailure (u : Unresolved) : Failure := .missing u.name u.cause

namespace ModelFile

/-- Resolves a reference that names its namespace. -/
def resolveQualified (files : ModelFiles) (type : TypeName) (space : String) :
    Except Unresolved String :=
  match Table.find? files space with
  | some file =>
    if (file.declaration? type.name).isSome then .ok (qualify space type.name)
    else .error ⟨type.render, .undeclaredIn type.name space none⟩
  | none => .error ⟨type.render, .undeclaredNamespace space⟩

/-- Resolves a name by what the file declares and imports. -/
def resolveName (files : ModelFiles) (file : ModelFile) (name : String) :
    Except Unresolved String :=
  if (file.declaration? name).isSome then .ok (qualify file.space name)
  else
    match file.explicitImports.find? name with
    | some fqn =>
      if (ModelFiles.find? files fqn).isSome then .ok fqn
      else .error ⟨fqn, .undeclaredImport fqn file.space⟩
    | none =>
      match file.wildcardImports.find? (ModelFiles.declares files · name) with
      | some space => .ok (qualify space name)
      | none =>
        if rootTypes.contains name then .ok (qualify rootNamespace name)
        else .error ⟨name, .unknownName name file.space⟩

/-- The fully-qualified name that a reference in a file stands for. -/
def resolve (files : ModelFiles) (file : ModelFile) (type : TypeName) :
    Except Unresolved String :=
  match type.space with
  | some space => resolveQualified files type space
  | none => resolveName files file type.name

/-- Whether everything that an import names is declared. -/
def checkImport (files : ModelFiles) (file : ModelFile) (node : Metamodel.Import) :
    Except Failure Unit :=
  match Table.find? files node.space with
  | none => .error (.missing node.space (.undeclaredImportSpace node.space file.space))
  | some imported =>
    node.scope.names.forM fun name =>
      if (imported.declaration? name).isSome then .ok ()
      else
        let fqn := qualify node.space name
        .error (.missing fqn (.undeclaredImport fqn file.space))

/-- Whether the types that a decorator refers to are declared. -/
def checkDecorator (files : ModelFiles) (file : ModelFile) (d : Metamodel.Decorator) :
    Except Failure Unit :=
  d.references.forM fun type =>
    match file.resolve files type with
    | .ok _ => .ok ()
    | .error u =>
      .error (.illegal (.badDecoratorReference d.name u.cause) ⟨file.fileName, d.location⟩)

/-- Checks what a file imports, and then its decorators. -/
def check (files : ModelFiles) (file : ModelFile) : Except Failure Unit := do
  file.model.imports.forM (file.checkImport files)
  file.allDecorators.forM (file.checkDecorator files)

end ModelFile

end DomainModels
