import DomainModels.Registry.Basic

/-!
Changes of a registry.

Every change makes the next files and their index, and gives the next registry only if the index can
be built; otherwise it gives the fault alone. The namespace of the root model cannot be changed.
-/

namespace DomainModels

/-- A model that is to be added, with the name of its file. -/
structure ModelInput where
  model : Metamodel.Model
  fileName : Option String

/-- The models of a JSON tree, which is a model or a bundle of models. -/
def ModelInput.ofJson (json : Json) (fileName : Option String) :
    Except Failure (List ModelInput) :=
  match Metamodel.modelsOfJson json with
  | .ok models => .ok (models.map (⟨·, fileName⟩))
  | .error fault => .error (.metamodel fault)

namespace Registry

/-- The model file of an input. -/
def makeFile (r : Registry) (input : ModelInput) : Except Failure ModelFile :=
  ModelFile.ofModel input.model input.fileName r.factories

/-- The registry of other files, if they can be indexed. -/
def withFiles (r : Registry) (files : ModelFiles) (mode : BuildMode) : Except Failure Registry := do
  return { r with files, index := ← TypeIndex.build files mode }

def checkNotSystem (space : String) : Except Failure Unit :=
  if space = rootNamespace then .error (.illegalAnywhere .systemNamespace) else .ok ()

/-- A namespace that is added must not be there yet. -/
def checkNew (files : ModelFiles) (space : String) : Except Failure Unit := do
  checkNotSystem space
  if Table.contains files space then throw (.illegalAnywhere (.duplicateNamespace space))

/-- Adds one model. -/
def addModel (r : Registry) (input : ModelInput) : Except Failure (Registry × ModelFile) := do
  let file ← r.makeFile input
  checkNew r.files file.space
  let next ← r.withFiles (Table.put file.space file r.files) .strict
  return (next, file)

/-- The files after models were added to them, and the added files in their order. -/
def addFiles (r : Registry) (files : ModelFiles) :
    List ModelInput → Except Failure (ModelFiles × List ModelFile)
  | [] => .ok (files, [])
  | input :: rest => do
    let file ← r.makeFile input
    checkNew files file.space
    let (files, added) ← r.addFiles (Table.put file.space file files) rest
    return (files, file :: added)

/-- Adds several models at once. Without validation, declarations that are faulty are left out of
the index. -/
def addModels (r : Registry) (inputs : List ModelInput) (disableValidation : Bool) :
    Except Failure (Registry × List ModelFile) := do
  let (files, added) ← r.addFiles r.files inputs
  let next ← r.withFiles files (if disableValidation then .lenient else .strict)
  return (next, added)

/-- Replaces the model of a loaded namespace. A model with the checksum of the loaded one changes
nothing, and then the loaded file is given back; the flag says whether there was a change. -/
def updateModel (r : Registry) (input : ModelInput) :
    Except Failure (Registry × ModelFile × Bool) := do
  let file ← r.makeFile input
  checkNotSystem file.space
  match r.file? file.space with
  | none => throw (.missing file.space (.notLoaded file.space))
  | some existing =>
    if existing.checksum = file.checksum then return (r, existing, false)
    let next ← r.withFiles (Table.put file.space file r.files) .strict
    return (next, file, true)

/-- Takes a namespace out. Files that import it stay, while classes that need it leave the index. -/
def removeModel (r : Registry) (space : String) : Except Failure Registry := do
  checkNotSystem space
  if !Table.contains r.files space then throw (.missing space (.notLoaded space))
  r.withFiles (Table.erase space r.files) .lenient

/-- Goes back to the root model alone. -/
def clear (r : Registry) : Except Failure Registry := r.withFiles Root.files .strict

/-- Whether the loaded files can be indexed strictly. -/
def validate (r : Registry) : Except Failure Unit := do
  let _ ← TypeIndex.build r.files .strict

end Registry

end DomainModels
