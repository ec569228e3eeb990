import DomainModels.Proofs.Index.ClassBody
import DomainModels.Proofs.Index.Stages

/-!
What a type index holds: the classes that are resolved, each once, and the maps. A strict build has
all of the declared ones, and nothing is left out for its relationships.
-/

namespace DomainModels

open ModelFiles (Resolves IsLoaded)

namespace ModelFiles

variable {files : ModelFiles}

theorem mem_declarations_iff {file : ModelFile} {d : Declaration} :
    (file, d) ∈ declarations files ↔ file ∈ Table.values files ∧ d ∈ file.declarations := by
  simp only [declarations, List.mem_flatMap, List.mem_map, Prod.mk.injEq]
  constructor
  · rintro ⟨_, hFile, _, hMem, rfl, rfl⟩
    exact ⟨hFile, hMem⟩
  · rintro ⟨hFile, hMem⟩
    exact ⟨file, hFile, d, hMem, rfl, rfl⟩

theorem mem_declarations {space : String} {file : ModelFile} {d : Declaration}
    (hFile : Table.find? files space = some file) (hMem : d ∈ file.declarations) :
    (file, d) ∈ declarations files :=
  mem_declarations_iff.mpr ⟨List.mem_map.mpr ⟨_, Table.mem_of_find? hFile, rfl⟩, hMem⟩

/-- What is found under a name is a declaration of one of the files, and its name is the one that
was asked for. -/
theorem IsLoaded.of_findDeclaration (hFiles : IsLoaded files) {fqn : String} {file : ModelFile}
    {d : Declaration} (hFound : ModelFiles.find? files fqn = some (file, d)) :
    Table.find? files file.space = some file ∧ d ∈ file.declarations ∧ d.space = file.space ∧
      d.fqn = fqn := by
  simp only [ModelFiles.find?, Option.bind_eq_bind, Option.bind_eq_some_iff] at hFound
  obtain ⟨⟨space, name⟩, hSplit, other, hFile, found, hDeclaration, hEq⟩ := hFound
  cases hEq
  obtain ⟨hMade, hSpace⟩ := hFiles.of_find? hFile
  obtain ⟨hMem, hName⟩ := ModelFile.mem_of_declaration? hDeclaration
  have hHome : d.space = file.space := hMade.spaces d hMem
  refine ⟨hSpace ▸ hFile, hMem, hHome, ?_⟩
  rw [Declaration.fqn, hHome, hSpace, hName]
  exact qualify_of_splitQualified hSplit

/-- The name under which a declaration is found comes apart into its namespace and its own name. -/
theorem IsLoaded.splitQualified_of_findDeclaration (hFiles : IsLoaded files) {fqn : String}
    {file : ModelFile} {d : Declaration} (hFound : ModelFiles.find? files fqn = some (file, d)) :
    splitQualified fqn = some (d.space, d.name) := by
  simp only [ModelFiles.find?, Option.bind_eq_bind, Option.bind_eq_some_iff] at hFound
  obtain ⟨⟨space, name⟩, hSplit, other, hFile, found, hDeclaration, hEq⟩ := hFound
  cases hEq
  obtain ⟨hMade, hSpace⟩ := hFiles.of_find? hFile
  obtain ⟨hMem, hName⟩ := ModelFile.mem_of_declaration? hDeclaration
  rw [hSplit, hMade.spaces d hMem, hSpace, hName]

theorem findClass_eq_ok {fqn : String} {file : ModelFile} {d : Declaration} {body : ClassBody} :
    findClass files fqn = .ok (file, d, body) ↔
      ModelFiles.find? files fqn = some (file, d) ∧ d.class? = some body := by
  unfold findClass
  split
  · rename_i hNone
    simp [hNone]
  · rename_i found other hFound
    split
    · rename_i hBody
      rw [hFound]
      constructor
      · intro hSame
        cases hSame
        exact ⟨rfl, hBody⟩
      · rintro ⟨hSame, hClass⟩
        cases hSame
        rw [hBody] at hClass
        cases hClass
        rfl
    · rename_i hNone
      rw [hFound]
      constructor
      · intro hAbsurd
        cases hAbsurd
      · rintro ⟨hSame, hClass⟩
        cases hSame
        rw [hNone] at hClass
        cases hClass

/-- The name of a class that is found is among the names of the classes. -/
theorem IsLoaded.mem_classNames (hFiles : IsLoaded files) {fqn : String}
    {found : ModelFile × Declaration × ClassBody} (hFound : findClass files fqn = .ok found) :
    fqn ∈ TypeIndex.classNames files := by
  obtain ⟨file, d, body⟩ := found
  obtain ⟨hFind, hClass⟩ := findClass_eq_ok.mp hFound
  obtain ⟨hFile, hMem, _, hName⟩ := hFiles.of_findDeclaration hFind
  refine List.mem_filterMap.mpr ⟨(file, d), mem_declarations hFile hMem, ?_⟩
  simp only [hClass, Option.map_some, hName]

theorem classNames_subset {fqn : String} (hMem : fqn ∈ TypeIndex.classNames files) :
    fqn ∈ TypeIndex.declaredNames files := by
  obtain ⟨⟨file, d⟩, hDeclared, hName⟩ := List.mem_filterMap.mp hMem
  obtain ⟨_, _, rfl⟩ := Option.map_eq_some_iff.mp hName
  exact List.mem_map.mpr ⟨_, hDeclared, rfl⟩

/-- A resolved class has the declaration that is found under its name. -/
theorem Resolves.exists_declaration {fqn : String} {c : ResolvedClass}
    (hResolves : Resolves files fqn c) : ∃ file d body parent,
      findClass files fqn = .ok (file, d, body) ∧ body.resolve files file d parent = .ok c := by
  cases hResolves with
  | base hFound _ hResolved => exact ⟨_, _, _, _, hFound, hResolved⟩
  | sub hFound _ _ hResolved => exact ⟨_, _, _, _, hFound, hResolved⟩

theorem Resolves.kind_of_findClass {fqn : String} {c : ResolvedClass} {file : ModelFile}
    {d : Declaration} {body : ClassBody} (hResolves : Resolves files fqn c)
    (hFound : findClass files fqn = .ok (file, d, body)) : c.kind = body.kind := by
  obtain ⟨_, _, _, _, hFound', hResolved⟩ := hResolves.exists_declaration
  rw [hFound] at hFound'
  cases hFound'
  obtain ⟨_, _, _, _, rfl⟩ := ClassBody.resolve_eq_ok hResolved
  rfl

theorem IsLoaded.fqn_of_resolves (hFiles : IsLoaded files) {fqn : String} {c : ResolvedClass}
    (hResolves : Resolves files fqn c) : c.fqn = fqn := by
  obtain ⟨file, d, body, parent, hFound, hResolved⟩ := hResolves.exists_declaration
  obtain ⟨hFind, _⟩ := findClass_eq_ok.mp hFound
  obtain ⟨_, _, _, hName⟩ := hFiles.of_findDeclaration hFind
  rw [ClassBody.fqn_of_resolve hResolved, hName]

end ModelFiles

namespace TypeIndex

variable {files : ModelFiles} {mode : BuildMode} {index whole : TypeIndex}

theorem mem_of_class? {fqn : String} {c : ResolvedClass} (hFound : index.class? fqn = some c) :
    c ∈ index.classes ∧ c.fqn = fqn :=
  Named.mem_of_find? hFound

/-! ## Builds before the relationships are checked -/

/-- A map that a declaration is resolved to. -/
def ResolvesMap (files : ModelFiles) (m : ResolvedMap) : Prop :=
  ∃ file d key value, (file, d) ∈ ModelFiles.declarations files ∧ d.body = .mapBody key value ∧
    file.resolveMap files d key value = .ok m

/-- The maps that are resolved are those whose declarations can be. -/
theorem mem_of_resolveMaps {maps : List ResolvedMap} (hMaps : resolveMaps files mode = .ok maps)
    {m : ResolvedMap} : m ∈ maps ↔ ResolvesMap files m := by
  rw [BuildMode.mem_of_collect hMaps, List.mem_filterMap]
  constructor
  · rintro ⟨⟨file, d⟩, hDeclared, hResult⟩
    simp only at hResult
    split at hResult
    · rename_i key value hBody
      exact ⟨file, d, key, value, hDeclared, hBody, Option.some.inj hResult⟩
    · cases hResult
  · rintro ⟨file, d, key, value, hDeclared, hBody, hResolved⟩
    exact ⟨(file, d), hDeclared, by simp only [hBody, hResolved]⟩

/-- An index with every class that can be resolved, each once, and with maps that are resolved. -/
structure IsWhole (files : ModelFiles) (whole : TypeIndex) : Prop where
  distinct : (whole.classes.map (·.fqn)).Nodup
  classes : ∀ c, c ∈ whole.classes ↔ Resolves files c.fqn c
  maps : ∀ m ∈ whole.maps, ResolvesMap files m

/-- What a build comes to before it checks the relationships. -/
theorem isWhole_of_resolved (hFiles : IsLoaded files) {classes : List ResolvedClass}
    {maps : List ResolvedMap} (hClasses : resolveClasses files mode = .ok classes)
    (hMaps : resolveMaps files mode = .ok maps) : IsWhole files
      { classes := arrange (·.fqn) (declaredNames files) classes
        maps := arrange (·.fqn) (declaredNames files) maps } := by
  have hMem : ∀ c, c ∈ classes ↔ ∃ name ∈ classNames files, Resolves files name c :=
    fun c => mem_of_resolveEach ModelFiles.agrees_nil hClasses
  refine ⟨nodup_arrange, fun c => ⟨fun hArranged => ?_, fun hResolves => ?_⟩, ?_⟩
  · obtain ⟨name, _, hResolves⟩ := (hMem c).mp (mem_of_mem_arrange hArranged).2
    rw [hFiles.fqn_of_resolves hResolves]
    exact hResolves
  · obtain ⟨_, _, _, _, hFound, _⟩ := hResolves.exists_declaration
    have hDeclared := hFiles.mem_classNames hFound
    refine mem_arrange_of_mem (ModelFiles.classNames_subset hDeclared)
      ((hMem c).mpr ⟨c.fqn, hDeclared, hResolves⟩) fun other hOther hSame => ?_
    obtain ⟨name, _, hOtherResolves⟩ := (hMem other).mp hOther
    rw [← hFiles.fqn_of_resolves hOtherResolves, hSame] at hOtherResolves
    exact hOtherResolves.unique hResolves
  · intro m hArranged
    exact (mem_of_resolveMaps hMaps).mp (mem_of_mem_arrange hArranged).2

theorem exists_isWhole (hFiles : IsLoaded files) (hBuild : build files mode = .ok index) :
    ∃ whole, IsWhole files whole ∧ checkPointers mode whole = .ok index := by
  obtain ⟨_, classes, maps, _, hClasses, hMaps, hPointers⟩ := build_eq_ok.mp hBuild
  exact ⟨_, isWhole_of_resolved hFiles hClasses hMaps, hPointers⟩

theorem IsWhole.class?_eq_some (hWhole : IsWhole files whole) (hFiles : IsLoaded files)
    {fqn : String} {c : ResolvedClass} : whole.class? fqn = some c ↔ Resolves files fqn c := by
  constructor
  · intro hFound
    obtain ⟨hMem, rfl⟩ := mem_of_class? hFound
    exact (hWhole.classes c).mp hMem
  · intro hResolves
    have hName : c.fqn = fqn := hFiles.fqn_of_resolves hResolves
    subst hName
    exact Named.find?_of_mem hWhole.distinct ((hWhole.classes c).mpr hResolves)

/-- The check of the relationships adds nothing. -/
theorem sublist_of_checkPointers (hPointers : checkPointers mode whole = .ok index) :
    index.classes.Sublist whole.classes := by
  cases mode with
  | strict =>
      obtain ⟨_, rfl⟩ := checkPointers_strict hPointers
      exact .refl _
  | lenient =>
      rw [checkPointers_lenient] at hPointers
      cases hPointers
      exact List.filter_sublist

/-! ## Checked builds -/

/-- Every class of an index is what its name is resolved to. -/
theorem resolves_of_mem (hFiles : IsLoaded files) (hBuild : build files mode = .ok index)
    {c : ResolvedClass} (hMem : c ∈ index.classes) : Resolves files c.fqn c := by
  obtain ⟨whole, hWhole, hPointers⟩ := exists_isWhole hFiles hBuild
  exact (hWhole.classes c).mp ((sublist_of_checkPointers hPointers).subset hMem)

/-- No two classes of an index have one name. -/
theorem nodup_classes (hBuild : build files mode = .ok index) :
    (index.classes.map (·.fqn)).Nodup := by
  obtain ⟨_, classes, maps, _, _, _, hPointers⟩ := build_eq_ok.mp hBuild
  exact ((sublist_of_checkPointers hPointers).map _).nodup nodup_arrange

/-- Each class of an index is the one that is found under its name. -/
theorem class?_of_mem (hBuild : build files mode = .ok index) {c : ResolvedClass}
    (hMem : c ∈ index.classes) : index.class? c.fqn = some c :=
  Named.find?_of_mem (nodup_classes hBuild) hMem

theorem resolves_of_class? (hFiles : IsLoaded files) (hBuild : build files mode = .ok index)
    {fqn : String} {c : ResolvedClass} (hFound : index.class? fqn = some c) :
    Resolves files fqn c := by
  obtain ⟨hMem, rfl⟩ := mem_of_class? hFound
  exact resolves_of_mem hFiles hBuild hMem

/-! ## Strict builds -/

/-- Every declared class of a strict build is resolved. -/
theorem exists_resolves (hFiles : IsLoaded files) (hBuild : build files .strict = .ok index)
    {fqn : String} {found : ModelFile × Declaration × ClassBody}
    (hFound : ModelFiles.findClass files fqn = .ok found) : ∃ c, Resolves files fqn c := by
  obtain ⟨_, classes, maps, _, hClasses, _, _⟩ := build_eq_ok.mp hBuild
  exact resolves_of_resolveEach ModelFiles.agrees_nil hClasses fqn (hFiles.mem_classNames hFound)

/-- And every resolved class is in the index. -/
theorem class?_of_resolves (hFiles : IsLoaded files) (hBuild : build files .strict = .ok index)
    {fqn : String} {c : ResolvedClass} (hResolves : Resolves files fqn c) :
    index.class? fqn = some c := by
  obtain ⟨_, hWhole, hPointers⟩ := exists_isWhole hFiles hBuild
  obtain ⟨_, rfl⟩ := checkPointers_strict hPointers
  exact (hWhole.class?_eq_some hFiles).mpr hResolves

/-- The classes of a strict index are the declared ones. -/
theorem class?_eq_some (hFiles : IsLoaded files) (hBuild : build files .strict = .ok index)
    {fqn : String} {c : ResolvedClass} : index.class? fqn = some c ↔ Resolves files fqn c :=
  ⟨resolves_of_class? hFiles hBuild, class?_of_resolves hFiles hBuild⟩

end TypeIndex

end DomainModels
