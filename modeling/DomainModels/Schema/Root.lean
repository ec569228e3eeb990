import DomainModels.Schema.ModelFile

/-!
The root model, which is always loaded.

Its five abstract classes are what every class extends in the end. Assets and participants are
identified by the system.
-/

namespace DomainModels.Root

/-- The root class of a kind. -/
def classOf (kind : ClassKind) (identified : Option Metamodel.Identified) :
    Metamodel.Declaration :=
  ⟨kind.rootName, .classBody kind true none identified [], [], none⟩

/-- The syntax tree of the root model. -/
def model : Metamodel.Model :=
  { Metamodel.Model.empty rootNamespace with
    declarations :=
      [classOf .concept none, classOf .asset (some .system), classOf .participant (some .system),
       classOf .transaction none, classOf .event none] }

/-- A root class after the checks. -/
def declarationOf (kind : ClassKind) (identified : Option Metamodel.Identified) : Declaration :=
  ⟨kind.rootName, rootNamespace, .classBody ⟨kind, true, none, identified, []⟩, [], none⟩

/-- The namespace of the root model with its version. -/
def version : Namespace := ⟨"concerto", some ⟨1, 0, 0, "", ""⟩⟩

/-- The model file of the root model. -/
def file : ModelFile where
  space := rootNamespace
  version := version
  fileName := some "concerto.cto"
  checksum := ModelFile.checksumOf model
  model := model
  declarations :=
    [declarationOf .concept none, declarationOf .asset (some .system),
     declarationOf .participant (some .system), declarationOf .transaction none,
     declarationOf .event none]
  explicitImports := []
  wildcardImports := []
  decorators := []

/-- The root model passes the checks of every model, and its file is what comes of it. -/
theorem ofModel_model : ModelFile.ofModel model (some "concerto.cto") [] = .ok file := rfl

end DomainModels.Root
