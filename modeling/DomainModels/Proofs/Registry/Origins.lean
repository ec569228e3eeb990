import DomainModels.Proofs.Metamodel.Numbers
import DomainModels.Proofs.Registry.Restoration
import DomainModels.Proofs.Registry.Types

/-!
Where the files of a registry come from.

A change enters files of the models that it brings, and of no others. So every file but that of the
root model has its model from one of the changes that were made, and what holds of all models that
were brought holds of the files. Models that were read from texts have finite numbers; hence the
defaults of a registry into which only such models were loaded are numbers that texts can write.
-/

namespace DomainModels

/-! ## Models of the files -/

/-- Every file but that of the root model keeps a model with a property. -/
def ModelFiles.StemFrom (files : ModelFiles) (P : ModelInput → Prop) : Prop :=
  ∀ entry ∈ files, entry.2 = Root.file ∨ P entry.2.input

namespace Registry

variable {r : Registry} {brought P : ModelInput → Prop}

theorem stemFrom_root : ModelFiles.StemFrom Root.files P := by
  intro entry hMem
  rw [List.mem_singleton.mp hMem]
  exact .inl rfl

theorem Enters.stemFrom {files next : ModelFiles} (hEnters : r.Enters brought files next)
    (hBrought : ∀ input, brought input → P input) (hFiles : files.StemFrom P) :
    next.StemFrom P := by
  induction hEnters with
  | done => exact hFiles
  | file hInput hMade _ _ ih =>
      refine ih fun entry hMem => ?_
      rcases Table.mem_put hMem with rfl | hMem
      · right
        rw [input_of_makeFile hMade]
        exact hBrought _ hInput
      · exact hFiles entry hMem

theorem Proceeds.stemFrom {next : ModelFiles} (hNext : r.Proceeds brought next)
    (hBrought : ∀ input, brought input → P input) (hFiles : r.files.StemFrom P) :
    next.StemFrom P := by
  cases hNext with
  | enters hEnters => exact hEnters.stemFrom hBrought hFiles
  | leaves space => exact fun entry hMem => hFiles entry (Table.mem_of_mem_erase hMem)
  | restarts => exact stemFrom_root

end Registry

namespace Session

variable {P : ModelInput → Prop}

theorem stemFrom_step {s : Session} {change : Change}
    (hBrought : ∀ input, change.Brings input → P input) (hFiles : s.registry.files.StemFrom P) :
    (s.step change).1.registry.files.StemFrom P := by
  unfold step
  split
  · rename_i hDone
    exact (Registry.proceeds_of_perform hDone).1.stemFrom hBrought hFiles
  · exact hFiles

theorem stemFrom_run {s : Session} {changes : List Change}
    (hBrought : ∀ change ∈ changes, ∀ input, change.Brings input → P input)
    (hFiles : s.registry.files.StemFrom P) : (s.run changes).registry.files.StemFrom P := by
  induction changes generalizing s with
  | nil => exact hFiles
  | cons change rest ih =>
      exact ih (fun other hMem => hBrought other (List.mem_cons_of_mem _ hMem))
        (stemFrom_step (hBrought change List.mem_cons_self) hFiles)

/-- Whatever was asked of a registry, every file but that of the root model keeps a model that one
of the changes has brought, with the name of the file under which it came. -/
theorem exists_brings_of_run (changes : List Change) :
    (initial.run changes).registry.files.StemFrom fun input =>
      ∃ change ∈ changes, change.Brings input :=
  stemFrom_run (fun change hMem _ hInput => ⟨change, hMem, hInput⟩) Registry.stemFrom_root

end Session

/-! ## Defaults -/

namespace Metamodel

theorem Property.HasFiniteNumbers.of_primitive? {p : Property} (hFinite : p.HasFiniteNumbers)
    {node : Primitive} (hNode : p.primitive? = some node) : node.HasFiniteNumbers := by
  have hShape := hFinite.shape
  unfold Property.primitive? at hNode
  split at hNode
  · rename_i hTyped
    cases hNode
    rw [hTyped] at hShape
    exact hShape
  · cases hNode

theorem Declaration.HasFiniteNumbers.of_mem_primitives {d : Declaration}
    (hFinite : d.HasFiniteNumbers) {node : Primitive} (hNode : node ∈ d.primitives) :
    node.HasFiniteNumbers := by
  have hBody := hFinite.body
  rcases List.mem_append.mp hNode with hField | hScalar
  · obtain ⟨p, hMem, hPrimitive⟩ := List.mem_filterMap.mp hField
    unfold Declaration.properties at hMem
    split at hMem
    · rename_i hClass
      rw [hClass] at hBody
      exact (hBody p hMem).of_primitive? hPrimitive
    · cases hMem
  · rw [Option.mem_toList] at hScalar
    unfold Declaration.scalar? at hScalar
    split at hScalar
    · rename_i hType
      cases hScalar
      rw [hType] at hBody
      exact hBody
    · cases hScalar

end Metamodel

namespace ValueType

variable {type : ValueType}

/-- A type takes its default over from the model. -/
theorem IsMadeOf.hasFiniteDefault {node : Metamodel.Primitive} (hMade : type.IsMadeOf node)
    (hFinite : node.HasFiniteNumbers) : type.HasFiniteDefault := by
  obtain ⟨ctx, name, location, cause, hMade⟩ := hMade
  intro x hDefault
  cases node with
  | double default bounds =>
      simp only [FileContext.makeValueType, Outcome.bind_eq_ok, Outcome.pure_eq_ok,
        Outcome.exists_unit] at hMade
      obtain ⟨v, _, _, rfl⟩ := hMade
      obtain ⟨y, rfl, hSame⟩ := Option.map_eq_some_iff.mp hDefault
      cases hSame
      exact hFinite.1 x rfl
  | boolean default =>
      cases hMade
      obtain ⟨_, _, hOther⟩ := Option.map_eq_some_iff.mp hDefault
      cases hOther
  | string default _ _ | integer default _ | long default _ =>
      simp only [FileContext.makeValueType, Outcome.bind_eq_ok, Outcome.pure_eq_ok,
        Outcome.exists_unit] at hMade
      obtain ⟨v, _, _, rfl⟩ := hMade
      obtain ⟨_, _, hOther⟩ := Option.map_eq_some_iff.mp hDefault
      cases hOther

theorem ComesFrom.hasFiniteDefault {nodes : List Metamodel.Primitive}
    (hType : type.ComesFrom nodes) (hFinite : ∀ node ∈ nodes, node.HasFiniteNumbers) :
    type.HasFiniteDefault := by
  cases hType with
  | plain type => exact hasFiniteDefault_of_isNone (by cases type <;> rfl)
  | dateTime default => exact hasFiniteDefault_of_isNone rfl
  | written hNode hMade => exact hMade.hasFiniteDefault (hFinite _ hNode)

end ValueType

/-- A model with finite numbers is made into a file with finite defaults. -/
theorem ModelFile.hasFiniteDefault_of_ofModel {model : Metamodel.Model} {fileName : Option String}
    {factories : List DecoratorFactory} {file : ModelFile} (hFinite : model.HasFiniteNumbers)
    (hMade : ofModel model fileName factories = .ok file) :
    ∀ d ∈ file.declarations, ∀ type ∈ d.body.valueTypes, type.HasFiniteDefault := by
  intro d hMem type hType
  refine (comesFrom_of_ofModel hMade d hMem type hType).hasFiniteDefault fun node hNode => ?_
  obtain ⟨written, hWritten, hNode⟩ := List.mem_flatMap.mp hNode
  exact (hFinite.declarations written hWritten).of_mem_primitives hNode

theorem Root.hasFiniteNumbers_classOf (kind : ClassKind)
    (identified : Option Metamodel.Identified) : (classOf kind identified).HasFiniteNumbers where
  body _ hMem := absurd hMem List.not_mem_nil
  decorators _ hMem := absurd hMem List.not_mem_nil

theorem Root.hasFiniteNumbers_model : model.HasFiniteNumbers where
  declarations := by simp [model, hasFiniteNumbers_classOf]
  decorators _ hMem := absurd hMem List.not_mem_nil

/-- The models that a change brings have been read from the trees of texts. -/
def Change.IsWritten (change : Change) : Prop :=
  ∀ input, change.Brings input → ∃ json inputs, json.IsWellFormed ∧
    ModelInput.ofJson json input.fileName = .ok inputs ∧ input ∈ inputs

theorem Change.IsWritten.hasFiniteNumbers {change : Change} (hWritten : change.IsWritten)
    {input : ModelInput} (hInput : change.Brings input) : input.model.HasFiniteNumbers := by
  obtain ⟨json, inputs, hJson, hRead, hMem⟩ := hWritten input hInput
  unfold ModelInput.ofJson at hRead
  split at hRead
  · rename_i models hModels
    cases hRead
    obtain ⟨m, hModel, hInput⟩ := List.mem_map.mp hMem
    rw [← hInput]
    exact Metamodel.hasFiniteNumbers_of_modelsOfJson hJson hModels m hModel
  · cases hRead

/-- Where all models were read from texts, every default of a registry is a number that texts can
write: what is asked of the numbers of portable registries is no condition on such a registry. -/
theorem Session.hasFiniteDefaults_of_run {changes : List Change}
    (hWritten : ∀ change ∈ changes, change.IsWritten) :
    (initial.run changes).registry.HasFiniteDefaults := by
  rintro ⟨file, d⟩ hFound type hType
  obtain ⟨hFile, hDeclared⟩ := ModelFiles.mem_declarations_iff.mp hFound
  obtain ⟨entry, hEntry, rfl⟩ := List.mem_map.mp hFile
  obtain ⟨model, fileName, factories, hMade⟩ :=
    (sound_run sound_initial changes).files.made entry hEntry
  have hInput : entry.2.input = ⟨model, fileName⟩ :=
    Registry.input_of_makeFile (r := { Registry.initial with factories }) hMade
  have hFinite : model.HasFiniteNumbers := by
    rcases exists_brings_of_run changes entry hEntry with hRoot | ⟨change, hMem, hBrings⟩
    · rw [hRoot] at hInput
      cases hInput
      exact Root.hasFiniteNumbers_model
    · rw [hInput] at hBrings
      exact (hWritten change hMem).hasFiniteNumbers hBrings
  exact ModelFile.hasFiniteDefault_of_ofModel hFinite hMade d hDeclared type hType

end DomainModels
