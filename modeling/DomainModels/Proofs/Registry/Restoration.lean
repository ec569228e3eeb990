import DomainModels.Proofs.Registry.Removal

/-!
Taking a namespace out and adding it again.

A file keeps the model that it was made from. As long as no factory of decorators is registered, a
change leaves only files that would be made again of their models as they are. Hence a namespace
that was taken out comes back with the same file, and since the index is built afresh from all
files, nothing is left of what its dependents have lost in between.
-/

namespace DomainModels

open ModelFiles (IsLoaded)

/-- The input of which a file is made. -/
def ModelFile.input (file : ModelFile) : ModelInput := ⟨file.model, file.fileName⟩

namespace Registry

variable {r : Registry} {space : String} {brought : ModelInput → Prop}

theorem input_of_makeFile {input : ModelInput} {file : ModelFile}
    (hMade : r.makeFile input = .ok file) : file.input = input := by
  simp only [makeFile, ModelFile.ofModel, Outcome.bind_eq_ok, Outcome.pure_eq_ok] at hMade
  obtain ⟨_, _, _, _, _, _, _, _, rfl⟩ := hMade
  rfl

/-! ## What changes do to the files -/

theorem exists_index_of_withFiles {files : ModelFiles} {mode : BuildMode} {next : Registry}
    (hNext : r.withFiles files mode = .ok next) : ∃ index, next = { r with files, index } := by
  simp only [withFiles, Outcome.bind_eq_ok, Outcome.pure_eq_ok] at hNext
  obtain ⟨index, _, rfl⟩ := hNext
  exact ⟨index, rfl⟩

/-- What a change makes of the files of a registry: files of models that it brings are entered, the
file of a namespace leaves, or the root model alone is left. -/
inductive Proceeds (r : Registry) (brought : ModelInput → Prop) : ModelFiles → Prop where
  | enters {files : ModelFiles} (hEnters : r.Enters brought r.files files) :
      Proceeds r brought files
  | leaves (space : String) : Proceeds r brought (r.staying space)
  | restarts : Proceeds r brought Root.files

/-- No change but the registration of a factory does anything to the factories. -/
theorem proceeds_of_perform {change : Change} {next : Registry} {swapped : Bool}
    (hNext : r.perform change = .ok (next, swapped)) :
    r.Proceeds change.Brings next.files ∧
      ((∀ factory, change ≠ .addFactory factory) → next.factories = r.factories) := by
  cases change with
  | addModel input =>
      simp only [perform, addModel, Outcome.bind_eq_ok, Outcome.pure_eq_ok] at hNext
      obtain ⟨_, ⟨file, hMade, _, hNew, _, hSwapped, rfl⟩, hEq⟩ := hNext
      cases hEq
      obtain ⟨_, rfl⟩ := exists_index_of_withFiles hSwapped
      exact ⟨.enters (.file rfl hMade (checkNew_eq_ok.mp hNew).1 (.done _)), fun _ => rfl⟩
  | addModels inputs disableValidation =>
      simp only [perform, addModels, Outcome.bind_eq_ok, Outcome.pure_eq_ok] at hNext
      obtain ⟨_, ⟨_, hAdded, _, hSwapped, rfl⟩, hEq⟩ := hNext
      cases hEq
      obtain ⟨_, rfl⟩ := exists_index_of_withFiles hSwapped
      exact ⟨.enters (enters_addFiles hAdded), fun _ => rfl⟩
  | updateModel input =>
      simp only [perform, updateModel, Outcome.bind_eq_ok, Outcome.pure_eq_ok] at hNext
      obtain ⟨_, ⟨file, hMade, _, hSystem, hUpdated⟩, hEq⟩ := hNext
      cases hEq
      split at hUpdated
      · simp at hUpdated
      · split at hUpdated
        · rw [Outcome.pure_eq_ok] at hUpdated
          cases hUpdated
          exact ⟨.enters (.done _), fun _ => rfl⟩
        · simp only [Outcome.bind_eq_ok, Outcome.pure_eq_ok] at hUpdated
          obtain ⟨_, hSwapped, hEq⟩ := hUpdated
          cases hEq
          obtain ⟨_, rfl⟩ := exists_index_of_withFiles hSwapped
          exact ⟨.enters (.file rfl hMade (checkNotSystem_eq_ok.mp hSystem) (.done _)),
            fun _ => rfl⟩
  | removeModel space =>
      simp only [perform, Outcome.bind_eq_ok, Outcome.pure_eq_ok] at hNext
      obtain ⟨_, hRemoved, hEq⟩ := hNext
      cases hEq
      obtain ⟨_, rfl⟩ := exists_index_of_removeModel hRemoved
      exact ⟨.leaves space, fun _ => rfl⟩
  | clear =>
      simp only [perform, clear, Outcome.bind_eq_ok, Outcome.pure_eq_ok] at hNext
      obtain ⟨_, hSwapped, hEq⟩ := hNext
      cases hEq
      obtain ⟨_, rfl⟩ := exists_index_of_withFiles hSwapped
      exact ⟨.restarts, fun _ => rfl⟩
  | updateExternal source =>
      simp only [perform, updateExternal, Outcome.bind_eq_ok, Outcome.pure_eq_ok] at hNext
      obtain ⟨_, ⟨_, hFetched, hUpdated⟩, hEq⟩ := hNext
      cases hEq
      split at hUpdated
      · rw [Outcome.pure_eq_ok] at hUpdated
        cases hUpdated
        exact ⟨.enters (.done _), fun _ => rfl⟩
      · simp only [Outcome.bind_eq_ok, Outcome.pure_eq_ok] at hUpdated
        obtain ⟨_, hSwapped, hEq⟩ := hUpdated
        cases hEq
        obtain ⟨_, rfl⟩ := exists_index_of_withFiles hSwapped
        exact ⟨.enters (enters_fetchMissing hFetched), fun _ => rfl⟩
  | addFactory factory =>
      cases hNext
      exact ⟨.enters (.done _), fun hOther => (hOther factory rfl).elim⟩

/-! ## Files that would be made again -/

/-- The file of a namespace, if there is one, would be made again as it is. -/
def Remakes (r : Registry) (files : ModelFiles) (space : String) : Prop :=
  ∀ file, Table.find? files space = some file → r.makeFile file.input = .ok file

/-- Whatever is entered has just been made. -/
theorem Remakes.enters {files next : ModelFiles} (hRemakes : r.Remakes files space)
    (hEnters : r.Enters brought files next) : r.Remakes next space := by
  induction hEnters with
  | done => exact hRemakes
  | file _ hMade _ _ ih =>
      refine ih fun found hFound => ?_
      rw [Table.find?_put] at hFound
      split at hFound
      · cases hFound
        rw [input_of_makeFile hMade]
        exact hMade
      · exact hRemakes found hFound

theorem Remakes.proceeds {next : ModelFiles} (hRemakes : r.Remakes r.files space)
    (hUser : space ≠ rootNamespace) (hNext : r.Proceeds brought next) : r.Remakes next space := by
  cases hNext with
  | enters hEnters => exact hRemakes.enters hEnters
  | leaves gone =>
      intro file hFound
      rw [staying, Table.find?_erase] at hFound
      split at hFound
      · cases hFound
      · exact hRemakes file hFound
  | restarts =>
      intro file hFound
      rw [Root.files, Table.find?_cons, if_neg hUser] at hFound
      cases hFound

/-- What would be made again depends on the factories alone. -/
theorem Remakes.of_factories {next : Registry} {files : ModelFiles}
    (hSame : next.factories = r.factories) (hRemakes : r.Remakes files space) :
    next.Remakes files space := fun file hFound => by
  rw [makeFile, hSame]
  exact hRemakes file hFound

end Registry

namespace Session

variable {space : String}

theorem remakes_step {s : Session} (hUser : space ≠ rootNamespace) {change : Change}
    (hOther : ∀ factory, change ≠ .addFactory factory)
    (hRemakes : s.registry.Remakes s.registry.files space) :
    (s.step change).1.registry.Remakes (s.step change).1.registry.files space := by
  unfold step
  split
  · rename_i hDone
    obtain ⟨hFiles, hSame⟩ := Registry.proceeds_of_perform hDone
    exact (hRemakes.proceeds hUser hFiles).of_factories (hSame hOther)
  · exact hRemakes

theorem remakes_run {s : Session} (hUser : space ≠ rootNamespace) {changes : List Change}
    (hOther : ∀ factory, Change.addFactory factory ∉ changes)
    (hRemakes : s.registry.Remakes s.registry.files space) :
    (s.run changes).registry.Remakes (s.run changes).registry.files space := by
  induction changes generalizing s with
  | nil => exact hRemakes
  | cons change rest ih =>
      refine ih (fun factory hMem => hOther factory (List.mem_cons_of_mem _ hMem))
        (remakes_step hUser (fun factory hSame => hOther factory ?_) hRemakes)
      rw [hSame]
      exact List.mem_cons_self

end Session

/-! ## Taking out and adding again -/

namespace Registry

variable {r : Registry} {space : String}

/-- A file that would be made again as it is can be taken out and added again. -/
theorem addModel_of_removeModel (hStrict : r.IsStrict) (hUser : space ≠ rootNamespace)
    {file : ModelFile} (hFile : r.file? space = some file)
    (hMade : r.makeFile file.input = .ok file) {next : Registry}
    (hNext : r.removeModel space = .ok next) :
    next.addModel file.input = .ok (r, file) := by
  obtain ⟨index, rfl⟩ := exists_index_of_removeModel hNext
  have hSpace : file.space = space := (hStrict.files.of_find? hFile).2
  have hFiles : Table.put file.space file (r.staying space) = r.files := by
    rw [hSpace]
    exact Table.put_erase hStrict.files.sorted hFile
  have hNew : checkNew (r.staying space) file.space = .ok () := by
    refine checkNew_eq_ok.mpr ⟨hSpace ▸ hUser, ?_⟩
    rw [hSpace, staying, Table.find?_erase, if_pos rfl]
  have hAdded := addModel_of_build (r := { r with files := r.staying space, index }) hMade hNew
    (hFiles ▸ hStrict.index)
  rwa [hFiles] at hAdded

/-- Taking a namespace out can be undone. Wherever a run of changes leads to files that pass strict
validation, every namespace but that of the root model can be taken out, and adding the model of its
file under the name of this file then gives back the registry as it was: all files, this one with
its declarations, imports, decorators and checksum, and the index with the classes and maps that
depend on the namespace. The factories of decorators have to be those that were registered when the
namespace was not there yet. -/
theorem restored_of_removeModel {early late : List Change} {space : String}
    (hValid : (Session.initial.run (early ++ late)).registry.validate = .ok ())
    (hUser : space ∈ (Session.initial.run (early ++ late)).registry.userSpaces)
    (hBefore : (Session.initial.run early).registry.file? space = none)
    (hFactories : ∀ factory, Change.addFactory factory ∉ late) :
    let r := (Session.initial.run (early ++ late)).registry
    ∃ file next, r.file? space = some file ∧ r.removeModel space = .ok next ∧
      next.files = Table.erase space r.files ∧
      next.addModel ⟨file.model, file.fileName⟩ = .ok (r, file) := by
  intro r
  obtain ⟨hKey, hOther⟩ := List.mem_filter.mp hUser
  have hSystem : space ≠ rootNamespace := by simpa using hOther
  have hRemakes : r.Remakes r.files space := by
    have hNone : (Session.initial.run early).registry.Remakes
        (Session.initial.run early).registry.files space := fun file hFound => by
      cases hBefore.symm.trans hFound
    have hRun : Session.initial.run (early ++ late) = (Session.initial.run early).run late :=
      List.foldl_append
    have hLate := Session.remakes_run hSystem hFactories hNone
    rwa [← hRun] at hLate
  obtain ⟨file, hFile⟩ := Option.isSome_iff_exists.mp (Table.mem_keys.mp hKey)
  obtain ⟨next, hNext⟩ := exists_removeModel hUser
  exact ⟨file, next, hFile, hNext, removeModel_files hNext,
    addModel_of_removeModel (isStrict_of_validate hValid) hSystem hFile (hRemakes file hFile) hNext⟩

/-- Without the parts the racks of the shop, which hold bolts, are not in the index. With the parts
they are back. -/
theorem restored_parts :
    let changes : List Change := [.addModels [⟨Shop.partsModel, none⟩, ⟨Shop.model, none⟩] false]
    (Session.initial.run ([] ++ changes)).registry = Shop.registry ∧
      Shop.registry.validate = .ok () ∧ Shop.parts ∈ Shop.registry.userSpaces ∧
      Session.initial.registry.file? Shop.parts = none ∧
      (∀ factory, Change.addFactory factory ∉ changes) ∧
      ∃ next, Shop.registry.removeModel Shop.parts = .ok next ∧
        next.index.class? Shop.rack.fqn = none ∧
        next.addModel ⟨Shop.partsModel, none⟩ = .ok (Shop.registry, Shop.partsFile) := by
  intro changes
  have hRun : (Session.initial.run ([] ++ changes)).registry = Shop.registry := Shop.run_models
  have hBefore : Session.initial.registry.file? Shop.parts = none := rfl
  have hFactories : ∀ factory, Change.addFactory factory ∉ changes := by simp [changes]
  have hRestored := @restored_of_removeModel [] changes Shop.parts
    (hRun ▸ Shop.validate_registry) (hRun ▸ Shop.mem_userSpaces) hBefore hFactories
  rw [hRun] at hRestored
  obtain ⟨file, next, hFile, hNext, hStays, hAdded⟩ := hRestored
  cases (show Shop.registry.file? Shop.parts = some Shop.partsFile from rfl).symm.trans hFile
  refine ⟨hRun, Shop.validate_registry, Shop.mem_userSpaces, hBefore, hFactories, next, hNext,
    Option.eq_none_iff_forall_ne_some.mpr fun rack hRack => ?_, hAdded⟩
  -- The type of the bolts is not found any longer.
  have hLoaded : IsLoaded (Shop.registry.staying Shop.parts) := Shop.mayLeave_parts.isLoaded
  obtain ⟨_, hBuild⟩ := removeModel_eq_ok Shop.mayLeave_parts.strict.files hNext
  rw [removeModel_files hNext] at hBuild
  have hResolves := TypeIndex.resolves_of_class? hLoaded hBuild hRack
  have hDeclared : ModelFiles.find? (Shop.registry.staying Shop.parts) Shop.rack.fqn =
      some (Shop.file, Shop.rackDeclaration) := rfl
  obtain ⟨_, hBolt, _⟩ := hResolves.exists_resolve hLoaded hDeclared List.mem_cons_self
  cases hBolt

end Registry

end DomainModels
