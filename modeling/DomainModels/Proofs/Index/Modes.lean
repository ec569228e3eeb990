import DomainModels.Proofs.Index.Closure
import DomainModels.Proofs.Index.Types

/-!
Strict and lenient builds of the same files.

Both go through the same stages. Where a strict build ends at the first fault, a lenient one leaves
out what is faulty. So a lenient index that has left out nothing is the one of the strict build.
-/

namespace DomainModels

open ModelFiles (Resolves Agrees Findings IsLoaded)

/-- Strictly, results are collected where all of them are there. -/
theorem BuildMode.exists_collect_strict_iff {α : Type} {results : List (Except Failure α)} :
    (∃ found, BuildMode.strict.collect results = .ok found) ↔
      ∀ result ∈ results, ∃ a, result = .ok a := by
  simp only [collect_strict_eq_ok]
  constructor
  · rintro ⟨found, rfl⟩ result hMem
    obtain ⟨a, _, rfl⟩ := List.mem_map.mp hMem
    exact ⟨a, rfl⟩
  · intro hAll
    induction results with
    | nil => exact ⟨[], rfl⟩
    | cons first rest ih =>
        obtain ⟨⟨a, rfl⟩, hRest⟩ := List.forall_mem_cons.mp hAll
        obtain ⟨found, rfl⟩ := ih hRest
        exact ⟨a :: found, rfl⟩

namespace TypeIndex

variable {files : ModelFiles} {mode : BuildMode} {index whole : TypeIndex}

/-- Strictly, classes are resolved in turn where each of them can be resolved. -/
theorem exists_resolveEach_strict {names : List String} {known : Findings}
    (hKnown : Agrees files known) (hAll : ∀ name ∈ names, ∃ c, Resolves files name c) :
    ∃ classes, resolveEach files .strict names known = .ok classes := by
  induction names generalizing known with
  | nil => exact ⟨[], rfl⟩
  | cons first rest ih =>
      obtain ⟨⟨c, hResolves⟩, hRest⟩ := List.forall_mem_cons.mp hAll
      obtain ⟨hFirst, hAgrees⟩ := ModelFiles.resolveClass_first hKnown first
      obtain ⟨later, hLater⟩ := ih hAgrees hRest
      exact ⟨c :: later, resolveEach_cons_ok (Prod.ext ((hFirst c).mpr hResolves) rfl) hLater⟩

/-! ## Complete indexes -/

/-- An index with an entry for every class and for every map that is declared. -/
structure IsComplete (files : ModelFiles) (index : TypeIndex) : Prop where
  classes : ∀ file d body, (file, d) ∈ ModelFiles.declarations files → d.class? = some body →
    (index.class? d.fqn).isSome = true
  maps : ∀ file d key value, (file, d) ∈ ModelFiles.declarations files →
    d.body = .mapBody key value → (index.map? d.fqn).isSome = true

/-- Where no two declarations share a name, a map is resolved from the declaration of its name. -/
theorem ResolvesMap.eq_ok (hNames : (declaredNames files).Nodup) {m : ResolvedMap}
    (hResolves : ResolvesMap files m) {file : ModelFile} {d : Declaration}
    {key value : PropertyType} (hDeclared : (file, d) ∈ ModelFiles.declarations files)
    (hBody : d.body = .mapBody key value) (hName : m.fqn = d.fqn) :
    file.resolveMap files d key value = .ok m := by
  obtain ⟨home, other, _, _, hHome, hOther, hResolved⟩ := hResolves
  have hSame : (home, other) = (file, d) :=
    List.inj_on_of_nodup_map hNames hHome hDeclared
      ((resolveMap_eq_ok hResolved).1.symm.trans hName)
  cases hSame
  cases hOther.symm.trans hBody
  exact hResolved

/-- A strict index is complete. -/
theorem isComplete_of_strict (hFiles : IsLoaded files) (hNames : (declaredNames files).Nodup)
    (hBuild : build files .strict = .ok index) : index.IsComplete files := by
  obtain ⟨_, classes, maps, _, hClasses, hMaps, hPointers⟩ := build_eq_ok.mp hBuild
  obtain ⟨_, rfl⟩ := checkPointers_strict hPointers
  refine ⟨fun file d body hDeclared hBody => ?_, fun file d key value hDeclared hBody => ?_⟩
  · have hName : d.fqn ∈ classNames files :=
      List.mem_filterMap.mpr ⟨(file, d), hDeclared, by simp [hBody]⟩
    obtain ⟨c, hResolves⟩ :=
      resolves_of_resolveEach ModelFiles.agrees_nil hClasses d.fqn hName
    rw [class?_of_resolves hFiles hBuild hResolves]
    rfl
  · obtain ⟨m, hResolved⟩ := BuildMode.exists_collect_strict_iff.mp ⟨maps, hMaps⟩
      (file.resolveMap files d key value)
      (List.mem_filterMap.mpr ⟨(file, d), hDeclared, by simp only [hBody]⟩)
    have hName := (resolveMap_eq_ok hResolved).1
    have hArranged : m ∈ arrange (·.fqn) (declaredNames files) maps := by
      refine mem_arrange_of_mem (hName ▸ List.mem_map.mpr ⟨_, hDeclared, rfl⟩)
        ((mem_of_resolveMaps hMaps).mpr ⟨file, d, key, value, hDeclared, hBody, hResolved⟩)
        fun other hOther hSame => ?_
      have hOtherResolved := ((mem_of_resolveMaps hMaps).mp hOther).eq_ok hNames hDeclared hBody
        (hSame.trans hName)
      exact Except.ok.inj (hOtherResolved.symm.trans hResolved)
    exact List.find?_isSome.mpr ⟨m, hArranged, by simpa using hName⟩

theorem pointerFaults_eq_nil (hFine : ∀ name, ¬ whole.PointsAstray name) :
    whole.pointerFaults = [] := by
  have hNames : whole.pointerFaults.map (·.1) = [] :=
    List.eq_nil_iff_forall_not_mem.mpr fun name hFault => hFine name (mem_pointerFaults.mp hFault)
  exact List.map_eq_nil_iff.mp hNames

/-- Nothing points astray where everything that is declared has an entry, since what points astray
is left out. -/
theorem IsChecked.not_pointsAstray (hChecked : IsChecked files mode whole index)
    (hFiles : IsLoaded files) (hComplete : index.IsComplete files) (name : String) :
    ¬ whole.PointsAstray name := by
  intro hAstray
  rcases id hAstray with ⟨c, hMem, rfl, _⟩ | ⟨m, hMem, rfl, _⟩
  · obtain ⟨file, d, body, _, hFound, hResolved⟩ :=
      ((hChecked.isWhole.classes c).mp hMem).exists_declaration
    obtain ⟨hFind, hClass⟩ := ModelFiles.findClass_eq_ok.mp hFound
    obtain ⟨found, hIndexed⟩ := Option.isSome_iff_exists.mp (hComplete.classes file d body
      (hFiles.mem_of_find? hFind) hClass)
    rw [← ClassBody.fqn_of_resolve hResolved] at hIndexed
    exact ((hChecked.classes _ _).mp hIndexed).2 hAstray
  · obtain ⟨file, d, key, value, hDeclared, hBody, hResolved⟩ := hChecked.isWhole.maps m hMem
    obtain ⟨found, hIndexed⟩ :=
      Option.isSome_iff_exists.mp (hComplete.maps file d key value hDeclared hBody)
    obtain ⟨hFoundMem, hName⟩ := Named.mem_of_find? hIndexed
    rw [(resolveMap_eq_ok hResolved).1, ← hName] at hAstray
    exact ((hChecked.maps found).mp hFoundMem).2 hAstray

/-- A lenient build that has left out nothing could have been strict. -/
theorem build_strict_of_isComplete (hFiles : IsLoaded files) (hNames : (declaredNames files).Nodup)
    (hBuild : build files .lenient = .ok index)
    (hFilesChecked : ∀ file ∈ Table.values files, file.check files = .ok ())
    (hComplete : index.IsComplete files) : ∃ strict, build files .strict = .ok strict := by
  obtain ⟨_, classes, maps, _, hClasses, hMaps, hPointers⟩ := build_eq_ok.mp hBuild
  have hWhole := isWhole_of_resolved hFiles hClasses hMaps
  have hChecked := hWhole.isChecked hPointers
  obtain ⟨units, hUnits⟩ : ∃ units, BuildMode.strict.collect
      ((Table.values files).map fun file => file.check files) = .ok units := by
    refine BuildMode.exists_collect_strict_iff.mpr fun result hMem => ?_
    obtain ⟨file, hFile, rfl⟩ := List.mem_map.mp hMem
    exact ⟨(), hFilesChecked file hFile⟩
  obtain ⟨strictClasses, hStrictClasses⟩ : ∃ found, resolveClasses files .strict = .ok found := by
    refine exists_resolveEach_strict ModelFiles.agrees_nil fun name hMem => ?_
    obtain ⟨⟨file, d⟩, hDeclared, hName⟩ := List.mem_filterMap.mp hMem
    obtain ⟨body, hBody, rfl⟩ := Option.map_eq_some_iff.mp hName
    obtain ⟨c, hIndexed⟩ := Option.isSome_iff_exists.mp
      (hComplete.classes file d body hDeclared hBody)
    exact ⟨c, resolves_of_class? hFiles hBuild hIndexed⟩
  obtain ⟨strictMaps, hStrictMaps⟩ : ∃ found, resolveMaps files .strict = .ok found := by
    refine BuildMode.exists_collect_strict_iff.mpr fun result hMem => ?_
    obtain ⟨⟨file, d⟩, hDeclared, hResult⟩ := List.mem_filterMap.mp hMem
    simp only at hResult
    split at hResult
    · rename_i key value hBody
      cases hResult
      obtain ⟨m, hIndexed⟩ :=
        Option.isSome_iff_exists.mp (hComplete.maps file d key value hDeclared hBody)
      obtain ⟨hMapMem, hName⟩ := Named.mem_of_find? hIndexed
      exact ⟨m, (hWhole.maps m ((hChecked.maps m).mp hMapMem).1).eq_ok hNames hDeclared hBody hName⟩
    · cases hResult
  -- The stages of the lenient build have come to the same, and there is no fault left to find.
  obtain rfl : strictClasses = classes :=
    Except.ok.inj ((resolveEach_of_strict hStrictClasses .lenient).symm.trans hClasses)
  obtain rfl : strictMaps = maps :=
    Except.ok.inj ((BuildMode.collect_of_strict hStrictMaps .lenient).symm.trans hMaps)
  have hNoFaults := pointerFaults_eq_nil (hChecked.not_pointsAstray hFiles hComplete)
  exact ⟨_, build_eq_ok.mpr ⟨units, strictClasses, strictMaps, hUnits, hStrictClasses, hStrictMaps,
    checkPointers_of_no_faults .strict hNoFaults⟩⟩

/-- The two modes agree on files whose declarations have names of their own. A lenient build comes
to an index. A strict one does so exactly if every file passes the check of its imports and
decorators and the lenient index has an entry for every class and for every map that is declared,
and then it is the same index. -/
theorem modes_agree (hFiles : IsLoaded files) (hNames : (declaredNames files).Nodup) :
    ∃ index, build files .lenient = .ok index ∧
      ((∃ strict, build files .strict = .ok strict) ↔
        (∀ file ∈ Table.values files, file.check files = .ok ()) ∧ index.IsComplete files) ∧
      ∀ strict, build files .strict = .ok strict → strict = index := by
  obtain ⟨index, hBuild⟩ := build_lenient files
  have hSame : ∀ strict, build files .strict = .ok strict → strict = index := fun strict hStrict =>
    Except.ok.inj ((build_of_strict hStrict .lenient).symm.trans hBuild)
  refine ⟨index, hBuild, ⟨?_, ?_⟩, hSame⟩
  · rintro ⟨strict, hStrict⟩
    obtain ⟨units, _, _, hUnits, _⟩ := build_eq_ok.mp hStrict
    refine ⟨fun file hMem => ?_, hSame strict hStrict ▸ isComplete_of_strict hFiles hNames hStrict⟩
    obtain ⟨_, hChecked⟩ := BuildMode.exists_collect_strict_iff.mp ⟨units, hUnits⟩ _
      (List.mem_map.mpr ⟨file, hMem, rfl⟩)
    exact hChecked
  · rintro ⟨hFilesChecked, hComplete⟩
    exact build_strict_of_isComplete hFiles hNames hBuild hFilesChecked hComplete

/-- The staff has no strict build, since the lenient index has no entry for persons. -/
theorem modes_agree_on_staff : IsLoaded Staff.files ∧ (declaredNames Staff.files).Nodup ∧
    build Staff.files .lenient = .ok Staff.index ∧ ¬ Staff.index.IsComplete Staff.files ∧
      ¬ ∃ strict, build Staff.files .strict = .ok strict := by
  have hNames : (declaredNames Staff.files).Nodup := by decide
  obtain ⟨index, hBuild, hStrict, _⟩ := modes_agree Staff.isLoaded_files hNames
  cases hBuild.symm.trans Staff.build_files
  have hIncomplete : ¬ Staff.index.IsComplete Staff.files := by
    intro hComplete
    let body : ClassBody := ⟨.concept, false, none, none, [Staff.homeProperty]⟩
    have hDeclared : (Staff.file, ⟨"Person", Staff.space, .classBody body, [], none⟩) ∈
        ModelFiles.declarations Staff.files :=
      ModelFiles.mem_declarations (show Table.find? Staff.files Staff.space = _ from rfl)
        (by simp [Staff.file, body])
    exact absurd (hComplete.classes _ _ body hDeclared rfl) (by decide)
  exact ⟨Staff.isLoaded_files, hNames, Staff.build_files, hIncomplete,
    fun hBuilds => hIncomplete (hStrict.mp hBuilds).2⟩

end TypeIndex

end DomainModels
