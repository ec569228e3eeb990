import DomainModels.Index.Basic
import DomainModels.Proofs.Schema.ModelFile

/-!
Sets of model files as a registry holds them: each file is made from a model and stands under its
own namespace, and the root model is among them.
-/

namespace DomainModels.ModelFiles

/-- A set of model files that includes the root model. -/
structure IsLoaded (files : ModelFiles) : Prop where
  sorted : Table.Sorted files
  keyed : ∀ entry ∈ files, entry.1 = entry.2.space
  made : ∀ entry ∈ files, ∃ model fileName factories,
    ModelFile.ofModel model fileName factories = .ok entry.2
  root : Table.find? files rootNamespace = some Root.file

namespace IsLoaded

variable {files : ModelFiles}

theorem isMade (hFiles : IsLoaded files) {entry : String × ModelFile} (hMem : entry ∈ files) :
    entry.2.IsMade := by
  obtain ⟨_, _, _, hMade⟩ := hFiles.made entry hMem
  exact ModelFile.isMade_of_ofModel hMade

/-- A file that is found under a namespace is the file of that namespace. -/
theorem of_find? (hFiles : IsLoaded files) {space : String} {file : ModelFile}
    (hFound : Table.find? files space = some file) : file.IsMade ∧ file.space = space :=
  ⟨hFiles.isMade (Table.mem_of_find? hFound), (hFiles.keyed _ (Table.mem_of_find? hFound)).symm⟩

/-- A file of another namespace than that of the root model may join, or take the place of the file
that has been there. -/
theorem put (hFiles : IsLoaded files) {model : Metamodel.Model} {fileName : Option String}
    {factories : List DecoratorFactory} {file : ModelFile}
    (hMade : ModelFile.ofModel model fileName factories = .ok file)
    (hSpace : file.space ≠ rootNamespace) : IsLoaded (Table.put file.space file files) where
  sorted := Table.sorted_put hFiles.sorted _ _
  keyed := by
    intro entry hMem
    rcases Table.mem_put hMem with rfl | hMem
    · rfl
    · exact hFiles.keyed entry hMem
  made := by
    intro entry hMem
    rcases Table.mem_put hMem with rfl | hMem
    · exact ⟨model, fileName, factories, hMade⟩
    · exact hFiles.made entry hMem
  root := by rw [Table.find?_put, if_neg hSpace.symm, hFiles.root]

/-- Any namespace but that of the root model may leave. -/
theorem erase (hFiles : IsLoaded files) {space : String} (hSpace : space ≠ rootNamespace) :
    IsLoaded (Table.erase space files) where
  sorted := Table.sorted_erase hFiles.sorted _
  keyed entry hMem := hFiles.keyed entry (Table.mem_of_mem_erase hMem)
  made entry hMem := hFiles.made entry (Table.mem_of_mem_erase hMem)
  root := by rw [Table.find?_erase, if_neg hSpace.symm, hFiles.root]

end IsLoaded

/-- The root model alone is a set of model files. -/
theorem isLoaded_root : IsLoaded [(rootNamespace, Root.file)] where
  sorted := List.pairwise_singleton _ _
  keyed := by
    intro entry hMem
    rw [List.mem_singleton.mp hMem]
    rfl
  made := by
    intro entry hMem
    rw [List.mem_singleton.mp hMem]
    exact ⟨_, _, _, Root.ofModel_model⟩
  root := by rw [Table.find?_cons, if_pos rfl]

end DomainModels.ModelFiles
