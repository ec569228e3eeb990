import DomainModels.Proofs.Index.Root
import DomainModels.Proofs.Schema.Loaded
import DomainModels.Registry.Run

/-!
What a registry keeps along every run of changes: the root model stays as it is, every file stands
under its own versioned namespace, and the index is the one of the files.
-/

namespace DomainModels

open ModelFiles (IsLoaded)

/-- A model is among the answers of a source. -/
def ExternalSource.Brings (source : ExternalSource) (input : ModelInput) : Prop :=
  ∃ n request inputs, source.fetch n request = .ok inputs ∧ input ∈ inputs

/-- A change is given a model, or it may fetch it. -/
def Change.Brings (change : Change) (input : ModelInput) : Prop :=
  match change with
  | .addModel given | .updateModel given => input = given
  | .addModels inputs _ => input ∈ inputs
  | .updateExternal source => source.Brings input
  | .removeModel _ | .clear | .addFactory _ => False

namespace Registry

variable {r : Registry} {brought : ModelInput → Prop}

theorem checkNotSystem_eq_ok {space : String} :
    checkNotSystem space = .ok () ↔ space ≠ rootNamespace := by
  unfold checkNotSystem
  split <;> simp_all

theorem checkNew_eq_ok {files : ModelFiles} {space : String} : checkNew files space = .ok () ↔
    space ≠ rootNamespace ∧ Table.find? files space = none := by
  simp only [checkNew, Outcome.bind_eq_ok, Outcome.exists_unit, checkNotSystem_eq_ok]
  refine and_congr_right fun _ => ?_
  unfold Table.contains
  cases Table.find? files space <;> simp

theorem withFiles_eq_ok {files : ModelFiles} {mode : BuildMode} {next : Registry}
    (hNext : r.withFiles files mode = .ok next) :
    next.files = files ∧ TypeIndex.build files mode = .ok next.index := by
  simp only [withFiles, Outcome.bind_eq_ok, Outcome.pure_eq_ok] at hNext
  obtain ⟨index, hIndex, rfl⟩ := hNext
  exact ⟨rfl, hIndex⟩

theorem withFiles_of_build {files : ModelFiles} {mode : BuildMode} {index : TypeIndex}
    (hIndex : TypeIndex.build files mode = .ok index) :
    r.withFiles files mode = .ok { r with files, index } := by
  simp only [withFiles, hIndex]
  rfl

theorem validate_of_build (hIndex : TypeIndex.build r.files .strict = .ok r.index) :
    r.validate = .ok () := by
  simp only [validate, hIndex]
  rfl

/-! ## Files that join -/

/-- A model joins the files if it passes its checks and its namespace is new. -/
theorem addFiles_cons {files next : ModelFiles} {input : ModelInput} {rest : List ModelInput}
    {added : List ModelFile} : r.addFiles files (input :: rest) = .ok (next, added) ↔
    ∃ file later, r.makeFile input = .ok file ∧ file.space ≠ rootNamespace ∧
      Table.find? files file.space = none ∧
      r.addFiles (Table.put file.space file files) rest = .ok (next, later) ∧
      added = file :: later := by
  simp only [addFiles, Outcome.bind_eq_ok, Outcome.exists_unit, checkNew_eq_ok,
    Outcome.pure_eq_ok]
  constructor
  · rintro ⟨file, hMade, ⟨hSystem, hNew⟩, ⟨_, later⟩, hLater, hEq⟩
    cases hEq
    exact ⟨file, later, hMade, hSystem, hNew, hLater, rfl⟩
  · rintro ⟨file, later, hMade, hSystem, hNew, hLater, rfl⟩
    exact ⟨file, hMade, ⟨hSystem, hNew⟩, _, hLater, rfl⟩

/-- The files of models that are brought are entered one after another, each under its namespace,
which is not that of the root model. The file that has had the namespace is replaced. -/
inductive Enters (r : Registry) (brought : ModelInput → Prop) : ModelFiles → ModelFiles → Prop where
  | done (files : ModelFiles) : Enters r brought files files
  | file {files next : ModelFiles} {input : ModelInput} {file : ModelFile}
      (hBrought : brought input) (hMade : r.makeFile input = .ok file)
      (hSystem : file.space ≠ rootNamespace)
      (hLater : Enters r brought (Table.put file.space file files) next) :
      Enters r brought files next

theorem Enters.trans {files between next : ModelFiles} (hFirst : r.Enters brought files between)
    (hSecond : r.Enters brought between next) : r.Enters brought files next := by
  induction hFirst with
  | done => exact hSecond
  | file hBrought hMade hSystem _ ih => exact .file hBrought hMade hSystem (ih hSecond)

theorem Enters.mono {files next : ModelFiles} (hEnters : r.Enters brought files next)
    {others : ModelInput → Prop} (hOthers : ∀ input, brought input → others input) :
    r.Enters others files next := by
  induction hEnters with
  | done => exact .done _
  | file hBrought hMade hSystem _ ih => exact .file (hOthers _ hBrought) hMade hSystem ih

theorem enters_addFiles {files next : ModelFiles} {inputs : List ModelInput}
    {added : List ModelFile} (hAdded : r.addFiles files inputs = .ok (next, added)) :
    r.Enters (· ∈ inputs) files next := by
  induction inputs generalizing files next added with
  | nil =>
      simp only [addFiles, Except.ok.injEq, Prod.mk.injEq] at hAdded
      exact hAdded.1 ▸ .done files
  | cons input rest ih =>
      obtain ⟨file, _, hMade, hSystem, _, hLater, _⟩ := addFiles_cons.mp hAdded
      exact .file List.mem_cons_self hMade hSystem
        ((ih hLater).mono fun _ => List.mem_cons_of_mem input)

theorem enters_takeFetched {files next : ModelFiles} {missing : List ExternalImport}
    {fetched names : List String} {progress found : Bool} {inputs : List ModelInput}
    (hTaken : r.takeFetched missing files fetched progress inputs = .ok (next, names, found)) :
    r.Enters (· ∈ inputs) files next := by
  induction inputs generalizing files fetched progress with
  | nil =>
      simp only [takeFetched, Except.ok.injEq, Prod.mk.injEq] at hTaken
      exact hTaken.1 ▸ .done files
  | cons input rest ih =>
      simp only [takeFetched, Outcome.bind_eq_ok] at hTaken
      obtain ⟨file, hMade, _, hSystem, hTaken⟩ := hTaken
      exact .file List.mem_cons_self hMade (checkNotSystem_eq_ok.mp hSystem)
        ((ih hTaken).mono fun _ => List.mem_cons_of_mem input)

/-- What all rounds bring is entered after what has been there. -/
theorem enters_fetchMissing {source : ExternalSource} {rounds : Nat} {files next : ModelFiles}
    {fetched names : List String}
    (hFetched : (r.fetchMissing source rounds files fetched).result = .ok (next, names)) :
    r.Enters source.Brings files next := by
  induction rounds generalizing files fetched with
  | zero =>
      simp only [fetchMissing] at hFetched
      split at hFetched
      · simp only [Except.ok.injEq, Prod.mk.injEq] at hFetched
        exact hFetched.1 ▸ .done files
      · simp at hFetched
  | succ rounds ih =>
      simp only [fetchMissing] at hFetched
      split at hFetched
      · simp only [Except.ok.injEq, Prod.mk.injEq] at hFetched
        exact hFetched.1 ▸ .done files
      · split at hFetched
        · simp at hFetched
        · rename_i hAnswer
          simp only [Outcome.bind_eq_ok] at hAnswer
          obtain ⟨inputs, hInputs, hTaken⟩ := hAnswer
          split at hFetched
          · have hEnters := (enters_takeFetched hTaken).mono fun input hMem =>
              (⟨_, _, inputs, hInputs, hMem⟩ : source.Brings input)
            exact hEnters.trans (ih hFetched)
          · simp at hFetched

/-- Every file that is entered leaves a set of model files. -/
theorem Enters.isLoaded {files next : ModelFiles} (hEnters : r.Enters brought files next)
    (hFiles : IsLoaded files) : IsLoaded next := by
  induction hEnters with
  | done => exact hFiles
  | file _ hMade hSystem _ ih => exact ih (hFiles.put hMade hSystem)

/-! ## Single changes -/

theorem addModel_eq_ok {input : ModelInput} {next : Registry} {file : ModelFile}
    (hFiles : IsLoaded r.files) (hNext : r.addModel input = .ok (next, file)) :
    IsLoaded next.files ∧ TypeIndex.build next.files .strict = .ok next.index := by
  simp only [addModel, Outcome.bind_eq_ok, Outcome.pure_eq_ok] at hNext
  obtain ⟨_, hMade, _, hNew, _, hIndex, hEq⟩ := hNext
  cases hEq
  obtain ⟨hSame, hBuild⟩ := withFiles_eq_ok hIndex
  rw [hSame]
  exact ⟨hFiles.put hMade (checkNew_eq_ok.mp hNew).1, hBuild⟩

/-- A model joins whose file can be made, under a namespace that is new, if the index can be
built. -/
theorem addModel_of_build {input : ModelInput} {file : ModelFile} {index : TypeIndex}
    (hMade : r.makeFile input = .ok file) (hNew : checkNew r.files file.space = .ok ())
    (hIndex : TypeIndex.build (Table.put file.space file r.files) .strict = .ok index) :
    r.addModel input = .ok ({ r with files := Table.put file.space file r.files, index }, file) := by
  simp only [addModel, hMade, Outcome.bind_eq_ok, Outcome.pure_eq_ok]
  exact ⟨file, rfl, (), hNew, _, withFiles_of_build hIndex, rfl⟩

theorem addModels_eq_ok {inputs : List ModelInput} {disableValidation : Bool} {next : Registry}
    {added : List ModelFile} (hFiles : IsLoaded r.files)
    (hNext : r.addModels inputs disableValidation = .ok (next, added)) :
    IsLoaded next.files ∧
      TypeIndex.build next.files (if disableValidation then .lenient else .strict) =
        .ok next.index := by
  simp only [addModels, Outcome.bind_eq_ok, Outcome.pure_eq_ok] at hNext
  obtain ⟨⟨files, _⟩, hAdded, _, hIndex, hEq⟩ := hNext
  cases hEq
  obtain ⟨hSame, hBuild⟩ := withFiles_eq_ok hIndex
  rw [hSame]
  exact ⟨(enters_addFiles hAdded).isLoaded hFiles, hBuild⟩

theorem addModels_of_build {inputs : List ModelInput} {disableValidation : Bool}
    {files : ModelFiles} {added : List ModelFile} {index : TypeIndex}
    (hAdded : r.addFiles r.files inputs = .ok (files, added))
    (hIndex : TypeIndex.build files (if disableValidation then .lenient else .strict) = .ok index) :
    r.addModels inputs disableValidation = .ok ({ r with files, index }, added) := by
  simp only [addModels, hAdded, Outcome.bind_eq_ok, Outcome.pure_eq_ok]
  exact ⟨_, rfl, _, withFiles_of_build hIndex, rfl⟩

/-- An update that is no change gives the registry back. -/
theorem updateModel_eq_ok {input : ModelInput} {next : Registry} {file : ModelFile} {changed : Bool}
    (hFiles : IsLoaded r.files) (hNext : r.updateModel input = .ok (next, file, changed)) :
    if changed then IsLoaded next.files ∧ TypeIndex.build next.files .strict = .ok next.index
    else next = r := by
  simp only [updateModel, Outcome.bind_eq_ok] at hNext
  obtain ⟨made, hMade, _, hSystem, hNext⟩ := hNext
  split at hNext
  · simp at hNext
  · split at hNext
    · rw [Outcome.pure_eq_ok] at hNext
      cases hNext
      exact rfl
    · simp only [Outcome.bind_eq_ok, Outcome.pure_eq_ok] at hNext
      obtain ⟨_, hIndex, hEq⟩ := hNext
      cases hEq
      obtain ⟨hSame, hBuild⟩ := withFiles_eq_ok hIndex
      rw [if_pos rfl, hSame]
      exact ⟨hFiles.put hMade (checkNotSystem_eq_ok.mp hSystem), hBuild⟩

theorem removeModel_eq_ok {space : String} {next : Registry} (hFiles : IsLoaded r.files)
    (hNext : r.removeModel space = .ok next) :
    IsLoaded next.files ∧ TypeIndex.build next.files .lenient = .ok next.index := by
  simp only [removeModel, Outcome.bind_eq_ok] at hNext
  obtain ⟨_, hSystem, hNext⟩ := hNext
  split at hNext
  · simp at hNext
  · obtain ⟨hSame, hBuild⟩ := withFiles_eq_ok hNext
    rw [hSame]
    exact ⟨hFiles.erase (checkNotSystem_eq_ok.mp hSystem), hBuild⟩

theorem clear_eq_ok {next : Registry} (hNext : r.clear = .ok next) :
    IsLoaded next.files ∧ TypeIndex.build next.files .strict = .ok next.index := by
  obtain ⟨hSame, hBuild⟩ := withFiles_eq_ok hNext
  rw [hSame]
  exact ⟨ModelFiles.isLoaded_root, hBuild⟩

/-- Where nothing was fetched, the registry is given back. -/
theorem updateExternal_eq_ok {source : ExternalSource} {next : Registry} {fetched : List String}
    (hFiles : IsLoaded r.files) (hNext : (r.updateExternal source).result = .ok (next, fetched)) :
    if fetched = [] then next = r
    else IsLoaded next.files ∧ TypeIndex.build next.files .strict = .ok next.index := by
  simp only [updateExternal, Outcome.bind_eq_ok] at hNext
  obtain ⟨⟨files, names⟩, hFetched, hNext⟩ := hNext
  split at hNext
  · rw [Outcome.pure_eq_ok] at hNext
    cases hNext
    exact rfl
  · rename_i hSome
    simp only [Outcome.bind_eq_ok, Outcome.pure_eq_ok] at hNext
    obtain ⟨_, hIndex, hEq⟩ := hNext
    cases hEq
    obtain ⟨hSame, hBuild⟩ := withFiles_eq_ok hIndex
    rw [if_neg (by simpa using hSome), hSame]
    exact ⟨(enters_fetchMissing hFetched).isLoaded hFiles, hBuild⟩

/-- What is swapped in are loaded files with their index in the mode of the change. What is not
swapped in stays. -/
theorem perform_eq_ok {change : Change} {next : Registry} {swapped : Bool}
    (hFiles : IsLoaded r.files) (hNext : r.perform change = .ok (next, swapped)) :
    if swapped then
      IsLoaded next.files ∧ TypeIndex.build next.files change.buildMode = .ok next.index
    else next.files = r.files ∧ next.index = r.index := by
  cases change with
  | addModel input =>
      simp only [perform, Outcome.bind_eq_ok, Outcome.pure_eq_ok] at hNext
      obtain ⟨⟨_, _⟩, hAdded, hEq⟩ := hNext
      cases hEq
      exact addModel_eq_ok hFiles hAdded
  | addModels inputs disableValidation =>
      simp only [perform, Outcome.bind_eq_ok, Outcome.pure_eq_ok] at hNext
      obtain ⟨⟨_, _⟩, hAdded, hEq⟩ := hNext
      cases hEq
      have hBuilt := addModels_eq_ok hFiles hAdded
      cases disableValidation <;> exact hBuilt
  | updateModel input =>
      simp only [perform, Outcome.bind_eq_ok, Outcome.pure_eq_ok] at hNext
      obtain ⟨⟨_, _, _⟩, hUpdated, hEq⟩ := hNext
      cases hEq
      have hBuilt := updateModel_eq_ok hFiles hUpdated
      split at hBuilt
      · rename_i hChanged
        rw [if_pos hChanged]
        exact hBuilt
      · rename_i hSame
        rw [if_neg hSame, hBuilt]
        exact ⟨rfl, rfl⟩
  | removeModel space =>
      simp only [perform, Outcome.bind_eq_ok, Outcome.pure_eq_ok] at hNext
      obtain ⟨_, hRemoved, hEq⟩ := hNext
      cases hEq
      exact removeModel_eq_ok hFiles hRemoved
  | clear =>
      simp only [perform, Outcome.bind_eq_ok, Outcome.pure_eq_ok] at hNext
      obtain ⟨_, hCleared, hEq⟩ := hNext
      cases hEq
      exact clear_eq_ok hCleared
  | updateExternal source =>
      simp only [perform, Outcome.bind_eq_ok, Outcome.pure_eq_ok] at hNext
      obtain ⟨⟨_, fetched⟩, hFetched, hEq⟩ := hNext
      cases hEq
      have hBuilt := updateExternal_eq_ok hFiles hFetched
      cases fetched with
      | nil =>
          rw [if_pos rfl] at hBuilt
          rw [hBuilt]
          exact ⟨rfl, rfl⟩
      | cons first rest => exact hBuilt
  | addFactory factory =>
      cases hNext
      exact ⟨rfl, rfl⟩

end Registry

/-! ## Runs -/

namespace Session

/-- The files of a session are loaded, and the index is theirs. -/
structure Sound (s : Session) : Prop where
  files : IsLoaded s.registry.files
  index : TypeIndex.build s.registry.files s.mode = .ok s.registry.index

theorem sound_initial : Sound .initial := ⟨ModelFiles.isLoaded_root, Root.build_files⟩

/-- A change that is refused changes nothing. -/
theorem step_refused {s : Session} {change : Change} {failure : Failure}
    (hRefused : (s.step change).2 = some failure) : (s.step change).1 = s := by
  unfold step at hRefused ⊢
  split
  · rename_i hDone
    simp [hDone] at hRefused
  · rfl

theorem run_addModel {s : Session} {input : ModelInput} {next : Registry} {file : ModelFile}
    (hAdded : s.registry.addModel input = .ok (next, file)) :
    (s.run [.addModel input]).registry = next := by
  simp only [run, List.foldl_cons, List.foldl_nil, step, Registry.perform, hAdded]
  rfl

theorem run_addModels {s : Session} {inputs : List ModelInput} {disableValidation : Bool}
    {next : Registry} {added : List ModelFile}
    (hAdded : s.registry.addModels inputs disableValidation = .ok (next, added)) :
    (s.run [.addModels inputs disableValidation]).registry = next := by
  simp only [run, List.foldl_cons, List.foldl_nil, step, Registry.perform, hAdded]
  rfl

theorem sound_step {s : Session} (hSound : Sound s) (change : Change) :
    Sound (s.step change).1 := by
  unfold step
  split
  · rename_i next swapped hDone
    have hNext := Registry.perform_eq_ok hSound.files hDone
    cases swapped with
    | true => exact ⟨hNext.1, hNext.2⟩
    | false =>
        refine ⟨?_, ?_⟩
        · exact hNext.1 ▸ hSound.files
        · simpa [hNext.1, hNext.2] using hSound.index
  · exact hSound

theorem sound_run {s : Session} (hSound : Sound s) (changes : List Change) :
    Sound (s.run changes) := by
  induction changes generalizing s with
  | nil => exact hSound
  | cons change rest ih => exact ih (sound_step hSound change)

/-- Whatever was asked of a registry, the root model stands unmodified under its namespace, every
other file stands under its own versioned namespace, and the index is the one of the files in the
mode of the change that was swapped in last. From there, a change that is refused leaves the files
and the index as they are, and so does one that is not swapped in. -/
theorem files_and_index_of_run (changes : List Change) :
    let s := initial.run changes
    Table.find? s.registry.files rootNamespace = some Root.file ∧
      (∀ entry ∈ s.registry.files, entry.1 = entry.2.space ∧
        ∃ space, Namespace.parseVersioned entry.1 = .ok space) ∧
      TypeIndex.build s.registry.files s.mode = .ok s.registry.index ∧
      (∀ change failure, (s.step change).2 = some failure →
        (s.step change).1.registry.files = s.registry.files ∧
        (s.step change).1.registry.index = s.registry.index ∧ (s.step change).1.mode = s.mode) ∧
      ∀ change next swapped, s.registry.perform change = .ok (next, swapped) →
        (s.step change).1.registry = next ∧
        (s.step change).1.mode = (if swapped then change.buildMode else s.mode) ∧
        (swapped = false → next.files = s.registry.files ∧ next.index = s.registry.index) := by
  intro s
  have hSound : Sound s := sound_run sound_initial changes
  refine ⟨hSound.files.root, ?_, hSound.index, ?_, ?_⟩
  · intro entry hMem
    have hKey := hSound.files.keyed entry hMem
    refine ⟨hKey, entry.2.version, ?_⟩
    rw [hKey]
    exact (hSound.files.isMade hMem).versioned
  · intro change failure hRefused
    rw [step_refused hRefused]
    exact ⟨rfl, rfl, rfl⟩
  · intro change next swapped hDone
    have hNext := Registry.perform_eq_ok hSound.files hDone
    have hStep : s.step change = (⟨next, if swapped then change.buildMode else s.mode⟩, none) := by
      unfold step
      rw [hDone]
    refine ⟨by rw [hStep], by rw [hStep], ?_⟩
    rintro rfl
    exact hNext

end Session

end DomainModels
