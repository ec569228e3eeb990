import DomainModels.Proofs.Registry.Addition

/-!
Declarations by their qualified names.

A qualified name is taken apart at its last point. The names of declarations are not checked when a
model is loaded, so one with a point in it, or an empty one, is never found under its qualified
name, and it may share this name with a declaration of another namespace. The simple names identify
their declarations.
-/

namespace DomainModels

open ModelFiles (declarations simplyNamed)

namespace Registry

/-- After any run of changes, a declaration is answered under its qualified name exactly if its name
is simple. Nothing else is answered than such a declaration under its own qualified name, and no two
of them share one. -/
theorem getType_of_run (changes : List Change) :
    let r := (Session.initial.run changes).registry
    (∀ found ∈ declarations r.files,
      r.getType found.2.fqn = .ok found.2 ↔ IsSimpleName found.2.name) ∧
    (∀ fqn d, r.getType fqn = .ok d → ∃ file, (file, d) ∈ simplyNamed r.files ∧ d.fqn = fqn) ∧
    ((simplyNamed r.files).map fun found => found.2.fqn).Nodup := by
  intro r
  have hFiles : ModelFiles.IsLoaded r.files :=
    (Session.sound_run Session.sound_initial changes).files
  refine ⟨fun ⟨file, d⟩ hMem => ?_, fun fqn d hType => ?_, hFiles.nodup_simplyNamed⟩
  · rw [getType_eq_ok]
    constructor
    · rintro ⟨home, hFound⟩
      exact (hFiles.find?_eq_some_iff.mp hFound).2.1
    · intro hSimple
      exact ⟨file, hFiles.find?_eq_some_iff.mpr ⟨hMem, hSimple, rfl⟩⟩
  · obtain ⟨file, hFound⟩ := getType_eq_ok.mp hType
    obtain ⟨hMem, hSimple, hName⟩ := hFiles.find?_eq_some_iff.mp hFound
    exact ⟨file, List.mem_filter.mpr ⟨hMem, decide_eq_true hSimple⟩, hName⟩

end Registry

/-! ## Models of palettes

The version of one namespace is the start of the version of the other one.
-/

namespace Palette

/-- An enumeration without values. -/
def enumeration (space name : String) : Declaration := ⟨name, space, .enumBody [], [], none⟩

/-- The syntax tree of a model with one enumeration. -/
def model (space name : String) : Metamodel.Model :=
  { Metamodel.Model.empty space with declarations := [⟨name, .enumBody [], [], none⟩] }

/-- Its model file. -/
def file (space name : String) (version : Namespace) : ModelFile where
  space := space
  version := version
  fileName := none
  checksum := ModelFile.checksumOf (model space name)
  model := model space name
  declarations := [enumeration space name]
  explicitImports := []
  wildcardImports := []
  decorators := []

def hidden : Declaration := enumeration "paint@1.0.0-a" "b.Colour"

def colour : Declaration := enumeration "paint@1.0.0-a.b" "Colour"

def draft : ModelFile := file hidden.space hidden.name ⟨"paint", some ⟨1, 0, 0, "a", ""⟩⟩

def laterDraft : ModelFile := file colour.space colour.name ⟨"paint", some ⟨1, 0, 0, "a.b", ""⟩⟩

/-- Both models are loaded together. -/
def changes : List Change := [.addModels [⟨draft.model, none⟩, ⟨laterDraft.model, none⟩] false]

/-- The registry into which both models have been loaded. -/
def registry : Registry where
  files := [(rootNamespace, Root.file), (draft.space, draft), (laterDraft.space, laterDraft)]
  index := Root.index
  factories := []

theorem build_files : TypeIndex.build registry.files .strict = .ok registry.index :=
  (Root.build_of_rest rfl rfl rfl rfl rfl rfl rfl).trans
    (TypeIndex.checkPointers_of_no_pointers .strict (by decide) (by decide))

theorem run_changes : (Session.initial.run changes).registry = registry := by
  have hAdded : Session.initial.registry.addFiles Session.initial.registry.files
      [⟨draft.model, none⟩, ⟨laterDraft.model, none⟩] =
        .ok (registry.files, [draft, laterDraft]) := rfl
  exact Session.run_addModels (Registry.addModels_of_build hAdded build_files)

theorem declarations_registry : declarations registry.files =
    declarations [(rootNamespace, Root.file)] ++ [(draft, hidden), (laterDraft, colour)] := rfl

end Palette

namespace Registry

/-- Two declarations of a validated registry can have one qualified name, under which only one of
them is answered. -/
theorem getType_palette :
    let r := (Session.initial.run Palette.changes).registry
    r.validate = .ok () ∧
    (Palette.draft, Palette.hidden) ∈ declarations r.files ∧
    (Palette.laterDraft, Palette.colour) ∈ declarations r.files ∧
    Palette.hidden.fqn = "paint@1.0.0-a.b.Colour" ∧
    Palette.colour.fqn = "paint@1.0.0-a.b.Colour" ∧
    r.getType "paint@1.0.0-a.b.Colour" = .ok Palette.colour ∧
    Palette.colour.name ≠ Palette.hidden.name := by
  simp only [Palette.run_changes, Palette.declarations_registry, List.mem_append, List.mem_cons,
    or_true, true_or, true_and]
  exact ⟨validate_of_build Palette.build_files, by decide, by decide, rfl, by decide⟩

end Registry

end DomainModels
