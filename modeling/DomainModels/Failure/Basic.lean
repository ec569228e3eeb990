import DomainModels.Failure.Illegal
import DomainModels.Failure.Invalid
import DomainModels.Metamodel.Reader

/-!
What can go wrong in the library, by cause.
-/

namespace DomainModels

/-- Why no instance of a class could be generated. -/
inductive Ungenerable where
  | noConcreteType (fqn : String)
  | recursiveModel
  | emptyEnum (fqn : String)
  | boxedScalar (fqn field : String)
  | noMapKey (fqn : String)
  | exhausted
  deriving DecidableEq, Repr

/-- Why an operation fails. -/
inductive Failure where
  | metamodel (fault : Metamodel.Fault)
  | illegal (cause : Illegality) (site : Site)
  | missing (name : String) (cause : Missing)
  | invalid (cause : Invalidity) (path : Option Path)
  | ungenerable (cause : Ungenerable)
  | fileTrouble
  | badSettings

def Ungenerable.message : Ungenerable → String
  | .noConcreteType fqn => s!"No concrete extending type for \"{fqn}\""
  | .recursiveModel => "Model is recursive."
  | .emptyEnum fqn => s!"Enum \"{fqn}\" has no values"
  | .boxedScalar fqn field => s!"Scalar \"{fqn}\" was not unboxed for field \"{field}\""
  | .noMapKey fqn => s!"Map \"{fqn}\" has no usable key type"
  | .exhausted => "Model is nested too deeply."

namespace Failure

/-- An illegal model of which neither the file nor the place is known. -/
def illegalAnywhere (cause : Illegality) : Failure := .illegal cause .unknown

/-- Data that is invalid at a place. -/
def invalidAt (path : Path) (cause : Invalidity) : Failure := .invalid cause (some path)

def message : Failure → String
  | .metamodel fault => "Metamodel error: " ++ fault.message
  | .illegal cause site => cause.message ++ site.render
  | .missing _ cause => cause.message
  | .invalid cause path => cause.message (path.getD .root).render
  | .ungenerable cause => cause.message
  | .fileTrouble => "A file could not be read or written"
  | .badSettings => "The settings could not be read"

end Failure

end DomainModels
