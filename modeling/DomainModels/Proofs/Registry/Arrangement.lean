import DomainModels.Proofs.Index.Arrangement
import DomainModels.Proofs.Registry.Removal

/-!
Batches of models in another order.

Two models of a batch join one after the other just as well the other way round, so that a batch
leaves the same files in every order. Where the declarations inside of its models come in another
order, too, the files differ in the order of their declarations alone. So the index of the files
has the same entries.
-/

namespace DomainModels

open ModelFiles (IsLoaded)

namespace ModelInput

/-- Two models that differ in the order of their declarations. -/
def Rearranges (input other : ModelInput) : Prop :=
  input.fileName = other.fileName ∧ ∃ declarations, input.model.declarations.Perm declarations ∧
    other.model = { input.model with declarations }

theorem Rearranges.symm {input other : ModelInput} (h : input.Rearranges other) :
    other.Rearranges input := by
  obtain ⟨hName, declarations, hPerm, hModel⟩ := h
  refine ⟨hName.symm, input.model.declarations, ?_, ?_⟩
  · rw [hModel]
    exact hPerm.symm
  · rw [hModel]

/-- Two batches of the same models, in another order and with their declarations in another
order. -/
def BatchRearranges (inputs others : List ModelInput) : Prop :=
  ∃ middle, inputs.Perm middle ∧ List.Forall₂ Rearranges middle others

theorem BatchRearranges.symm {inputs others : List ModelInput} (h : BatchRearranges inputs others) :
    BatchRearranges others inputs := by
  obtain ⟨middle, hPerm, hEach⟩ := h
  obtain ⟨later, hLater, hSame⟩ := List.perm_comp_forall₂ hPerm hEach
  exact ⟨later, hSame.symm, List.Forall₂.flip (hLater.imp fun _ _ hInput => hInput.symm)⟩

end ModelInput

namespace Registry

variable {r : Registry} {files others next : ModelFiles} {inputs rest : List ModelInput}
  {input other : ModelInput} {added : List ModelFile}

theorem makeFile_rearranged (h : input.Rearranges other) {file : ModelFile}
    (hMade : r.makeFile input = .ok file) :
    ∃ otherFile, r.makeFile other = .ok otherFile ∧ file.Rearranges otherFile := by
  obtain ⟨hName, declarations, hPerm, hModel⟩ := h
  rw [makeFile, ← hName, hModel]
  exact ModelFile.ofModel_perm hPerm hMade

/-- A batch leaves the same files in every order. -/
theorem addFiles_perm {otherInputs : List ModelInput} (hPerm : inputs.Perm otherInputs)
    (hSorted : Table.Sorted files) (hAdded : r.addFiles files inputs = .ok (next, added)) :
    ∃ otherAdded, r.addFiles files otherInputs = .ok (next, otherAdded) := by
  induction hPerm generalizing files added with
  | nil => exact ⟨added, hAdded⟩
  | cons input _ ih =>
      obtain ⟨file, later, hMade, hSystem, hNew, hLater, rfl⟩ := addFiles_cons.mp hAdded
      obtain ⟨otherLater, hSame⟩ := ih (Table.sorted_put hSorted _ _) hLater
      exact ⟨_, addFiles_cons.mpr ⟨file, otherLater, hMade, hSystem, hNew, hSame, rfl⟩⟩
  | swap first second rest =>
      obtain ⟨file, later, hMade, hSystem, hNew, hLater, rfl⟩ := addFiles_cons.mp hAdded
      obtain ⟨other, last, hOther, hOtherSystem, hOtherNew, hLast, rfl⟩ := addFiles_cons.mp hLater
      rw [Table.find?_put] at hOtherNew
      split at hOtherNew
      · cases hOtherNew
      · rename_i hSpace
        refine ⟨_, addFiles_cons.mpr ⟨other, _, hOther, hOtherSystem, hOtherNew,
          addFiles_cons.mpr ⟨file, last, hMade, hSystem, ?_, ?_, rfl⟩, rfl⟩⟩
        · rw [Table.find?_put, if_neg (Ne.symm hSpace), hNew]
        · rw [Table.put_comm hSorted (Ne.symm hSpace)]
          exact hLast
  | trans _ _ ihFirst ihSecond =>
      obtain ⟨_, hMiddle⟩ := ihFirst hSorted hAdded
      exact ihSecond hSorted hMiddle

/-- Models whose declarations come in another order leave files that do so. -/
theorem addFiles_rearranged {otherInputs : List ModelInput}
    (hEach : List.Forall₂ ModelInput.Rearranges inputs otherInputs)
    (hFiles : ModelFiles.Rearranges files others)
    (hAdded : r.addFiles files inputs = .ok (next, added)) :
    ∃ otherNext otherAdded, r.addFiles others otherInputs = .ok (otherNext, otherAdded) ∧
      ModelFiles.Rearranges next otherNext := by
  induction hEach generalizing files others added with
  | nil =>
      cases hAdded
      exact ⟨others, [], rfl, hFiles⟩
  | cons hInput _ ih =>
      obtain ⟨file, later, hMade, hSystem, hNew, hLater, rfl⟩ := addFiles_cons.mp hAdded
      obtain ⟨other, hOther, hSame⟩ := makeFile_rearranged hInput hMade
      have hPut := hFiles.put hSame file.space
      obtain ⟨otherNext, otherLater, hOtherLater, hNext⟩ := ih hPut hLater
      rw [hSame.space] at hSystem hNew hOtherLater
      have hOtherNew : Table.find? others other.space = none := by
        have hLookup := hFiles.lookup other.space
        rw [hNew] at hLookup
        generalize Table.find? others other.space = found at hLookup ⊢
        cases hLookup
        rfl
      exact ⟨otherNext, _, addFiles_cons.mpr ⟨other, otherLater, hOther, hSystem, hOtherNew,
        hOtherLater, rfl⟩, hNext⟩

/-- A batch succeeds in every arrangement in which it does in one, with the same entries. -/
theorem addModels_rearranged {otherInputs : List ModelInput} (hFiles : IsLoaded r.files)
    (hBatch : ModelInput.BatchRearranges inputs otherInputs) {disableValidation : Bool}
    {after : Registry} (hAfter : r.addModels inputs disableValidation = .ok (after, added)) :
    ∃ otherAfter otherAdded,
      r.addModels otherInputs disableValidation = .ok (otherAfter, otherAdded) ∧
      after.index.SameEntries otherAfter.index := by
  obtain ⟨middle, hPerm, hEach⟩ := hBatch
  simp only [addModels, Outcome.bind_eq_ok, Outcome.pure_eq_ok] at hAfter
  obtain ⟨⟨files, _⟩, hAdded, swapped, hSwapped, hEq⟩ := hAfter
  cases hEq
  obtain ⟨rfl, hBuild⟩ := withFiles_eq_ok hSwapped
  obtain ⟨_, hMiddle⟩ := addFiles_perm hPerm hFiles.sorted hAdded
  obtain ⟨otherFiles, otherAdded, hOther, hSame⟩ :=
    addFiles_rearranged hEach (.refl r.files) hMiddle
  obtain ⟨index, hIndex, hEntries⟩ := TypeIndex.build_rearranged
    ((enters_addFiles hAdded).isLoaded hFiles) ((enters_addFiles hOther).isLoaded hFiles)
    hSame hBuild
  exact ⟨_, otherAdded, addModels_of_build hOther hIndex, hEntries⟩

/-- Whatever has been asked of a registry before, a batch of models can be added to it in one
arrangement of the models and of their declarations exactly if it can be in any other one. The
classes and the maps are the same then, each with all that is resolved for it. Only the order
differs in which they are listed, and with it the order of subclasses. -/
theorem entries_of_arrangements (changes : List Change) {inputs others : List ModelInput}
    (hBatch : ModelInput.BatchRearranges inputs others) (disableValidation : Bool) :
    let r := (Session.initial.run changes).registry
    ((∃ done, r.addModels inputs disableValidation = .ok done) ↔
        ∃ done, r.addModels others disableValidation = .ok done) ∧
      ∀ after added otherAfter otherAdded,
        r.addModels inputs disableValidation = .ok (after, added) →
        r.addModels others disableValidation = .ok (otherAfter, otherAdded) →
        after.index.classes.Perm otherAfter.index.classes ∧
          after.index.maps.Perm otherAfter.index.maps ∧
          (∀ fqn, after.index.class? fqn = otherAfter.index.class? fqn) ∧
          (∀ fqn, after.index.map? fqn = otherAfter.index.map? fqn) ∧
          (∀ fqn, (after.index.subclasses fqn).Perm (otherAfter.index.subclasses fqn)) ∧
          ∀ fqn, (after.index.assignableClasses fqn).Perm
            (otherAfter.index.assignableClasses fqn) := by
  intro r
  have hFiles : IsLoaded r.files := (Session.sound_run Session.sound_initial changes).files
  refine ⟨⟨?_, ?_⟩, ?_⟩
  · rintro ⟨⟨after, added⟩, hAfter⟩
    obtain ⟨_, _, hOther, _⟩ := addModels_rearranged hFiles hBatch hAfter
    exact ⟨_, hOther⟩
  · rintro ⟨⟨after, added⟩, hAfter⟩
    obtain ⟨_, _, hOther, _⟩ := addModels_rearranged hFiles hBatch.symm hAfter
    exact ⟨_, hOther⟩
  · intro after added otherAfter otherAdded hAfter hOtherAfter
    obtain ⟨_, _, hOther, hEntries⟩ := addModels_rearranged hFiles hBatch hAfter
    cases hOther.symm.trans hOtherAfter
    exact ⟨hEntries.classes, hEntries.maps, hEntries.class?_eq, hEntries.map?_eq,
      hEntries.subclasses, hEntries.assignableClasses⟩

end Registry

namespace Shop

/-- The models of the shop. -/
def batch : List ModelInput := [⟨partsModel, none⟩, ⟨model, none⟩]

/-- The shop comes first, with the last one of its declarations first. -/
def otherBatch : List ModelInput :=
  [⟨{ model with declarations := model.declarations.reverse }, none⟩, ⟨partsModel, none⟩]

theorem batchRearranges : ModelInput.BatchRearranges batch otherBatch := by
  refine ⟨[⟨model, none⟩, ⟨partsModel, none⟩], .swap _ _ _, .cons ?_ (.cons ?_ .nil)⟩
  · exact ⟨rfl, _, (List.reverse_perm _).symm, rfl⟩
  · exact ⟨rfl, _, .refl _, rfl⟩

end Shop

namespace Registry

/-- The shop can be loaded before its parts. -/
theorem entries_of_shop : ModelInput.BatchRearranges Shop.batch Shop.otherBatch ∧
    ∃ after added, initial.addModels Shop.otherBatch false = .ok (after, added) ∧
      ∀ fqn, Shop.registry.index.class? fqn = after.index.class? fqn := by
  have hAdded : initial.addFiles initial.files Shop.batch =
      .ok (Shop.registry.files, [Shop.partsFile, Shop.file]) := rfl
  have hBatch : initial.addModels Shop.batch false =
      .ok (Shop.registry, [Shop.partsFile, Shop.file]) :=
    addModels_of_build hAdded Shop.build_files
  obtain ⟨hSucceeds, hSame⟩ := entries_of_arrangements [] Shop.batchRearranges false
  obtain ⟨⟨after, added⟩, hAfter⟩ := hSucceeds.mp ⟨_, hBatch⟩
  obtain ⟨_, _, hClasses, _⟩ := hSame _ _ _ _ hBatch hAfter
  exact ⟨Shop.batchRearranges, after, added, hAfter, hClasses⟩

end Registry

end DomainModels
