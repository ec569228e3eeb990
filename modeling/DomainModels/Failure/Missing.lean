import DomainModels.Schema.Kinds

/-!
Why a type or a namespace is not found.
-/

namespace DomainModels

/-- Why a name stands for nothing that could be used in its place. -/
inductive Missing where
  | undeclaredNamespace (space : String)
  | undeclaredIn (name space : String) (suggestion : Option String)
  | undeclaredImport (fqn importer : String)
  | undeclaredImportSpace (space importer : String)
  | unknownName (name space : String)
  | undeclaredType (fqn : String)
  | noSuper (superType className : String)
  | notLoaded (space : String)
  | notFetched (spaces : List String)
  | primitive (name : String)
  | unqualified (name : String)
  | unregistered (space name : String)
  | brokenClass (fqn : String)
  | brokenMap (fqn : String)
  | notAClass (fqn : String) (kind : DeclarationKind)
  | notAMap (fqn : String) (kind : DeclarationKind)
  deriving DecidableEq, Repr

def Missing.message : Missing → String
  | .undeclaredNamespace space => s!"Namespace {space} is not declared"
  | .undeclaredIn name space suggestion =>
    let hint := (suggestion.map fun other => s!". Did you mean {other}?").getD ""
    s!"Type {name} is not declared in namespace {space}" ++ hint
  | .undeclaredImport fqn importer => s!"Type {fqn} imported by {importer} is not declared"
  | .undeclaredImportSpace space importer =>
    s!"Namespace {space} imported by {importer} is not declared"
  | .unknownName name space => s!"Undeclared type \"{name}\" in namespace \"{space}\""
  | .undeclaredType fqn => s!"Type {fqn} is not declared"
  | .noSuper superType className =>
    s!"Could not find super type {superType} of class {className}"
  | .notLoaded space => s!"Model file for namespace {space} has not been added"
  | .notFetched spaces =>
    "Failed to load external models for namespaces: " ++ ", ".intercalate spaces
  | .primitive name => s!"{name} is a primitive type and is not declared in a model file"
  | .unqualified name => s!"Type {name} is not a fully qualified name"
  | .unregistered space name => s!"Namespace {space} for type {name} is not registered"
  | .brokenClass fqn => s!"Class {fqn} failed validation and is not available"
  | .brokenMap fqn => s!"Map {fqn} failed validation and is not available"
  | .notAClass fqn kind => s!"Type {fqn} is a {kind.name}, not a class"
  | .notAMap fqn kind => s!"Type {fqn} is a {kind.name}, not a map"

end DomainModels
