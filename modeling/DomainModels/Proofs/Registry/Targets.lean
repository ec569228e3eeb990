import DomainModels.Proofs.Index.Closure
import DomainModels.Proofs.Registry.Types

/-!
What the properties of a strictly indexed registry hold.

Every reference that can be resolved stands for a declaration that is found under the name it is
resolved to, provided that the names of the declarations are simple. Since a strict index has all
declared classes and maps, whatever a property refers to can be looked up when its values are read,
written or generated.
-/

namespace DomainModels

open ModelFiles (IsLoaded Resolves)

/-! ## References -/

/-- What a reference of a file stands for: a declaration of the namespace that it names; or what the
file declares, imports by name, or finds in the first namespace imported as a whole that declares
the name; or else a root type. -/
inductive ModelFile.RefersTo (files : ModelFiles) (file : ModelFile) (type : Metamodel.TypeName) :
    String → Prop where
  | qualified {space : String} {home : ModelFile} (hSpace : type.space = some space)
      (hHome : Table.find? files space = some home)
      (hDeclared : (home.declaration? type.name).isSome = true) :
      RefersTo files file type (qualify space type.name)
  | own (hSpace : type.space = none) (hDeclared : (file.declaration? type.name).isSome = true) :
      RefersTo files file type (qualify file.space type.name)
  | explicit {fqn : String} (hSpace : type.space = none)
      (hOwn : ¬ (file.declaration? type.name).isSome = true)
      (hImport : file.explicitImports.find? type.name = some fqn)
      (hFound : (ModelFiles.find? files fqn).isSome = true) : RefersTo files file type fqn
  | wildcard {space : String} (hSpace : type.space = none)
      (hOwn : ¬ (file.declaration? type.name).isSome = true)
      (hImport : file.explicitImports.find? type.name = none)
      (hFirst : file.wildcardImports.find? (ModelFiles.declares files · type.name) = some space) :
      RefersTo files file type (qualify space type.name)
  | root (hSpace : type.space = none) (hOwn : ¬ (file.declaration? type.name).isSome = true)
      (hImport : file.explicitImports.find? type.name = none)
      (hFirst : file.wildcardImports.find? (ModelFiles.declares files · type.name) = none)
      (hRoot : rootTypes.contains type.name = true) :
      RefersTo files file type (qualify rootNamespace type.name)

namespace ModelFile

variable {files : ModelFiles} {file : ModelFile} {type : Metamodel.TypeName} {target : String}

theorem refersTo_of_resolve (hResolved : file.resolve files type = .ok target) :
    file.RefersTo files type target := by
  unfold resolve at hResolved
  split at hResolved
  · rename_i space hSpace
    unfold resolveQualified at hResolved
    split at hResolved
    · rename_i home hHome
      split at hResolved
      · rename_i hDeclared
        cases hResolved
        exact .qualified hSpace hHome hDeclared
      · cases hResolved
    · cases hResolved
  · rename_i hSpace
    unfold resolveName at hResolved
    split at hResolved
    · rename_i hDeclared
      cases hResolved
      exact .own hSpace hDeclared
    · rename_i hOwn
      split at hResolved
      · rename_i hImport
        split at hResolved
        · rename_i hFound
          cases hResolved
          exact .explicit hSpace hOwn hImport hFound
        · cases hResolved
      · rename_i hImport
        split at hResolved
        · rename_i hFirst
          cases hResolved
          exact .wildcard hSpace hOwn hImport hFirst
        · rename_i hFirst
          split at hResolved
          · rename_i hRoot
            cases hResolved
            exact .root hSpace hOwn hImport hFirst hRoot
          · cases hResolved

theorem resolve_of_refersTo (hRefers : file.RefersTo files type target) :
    file.resolve files type = .ok target := by
  cases hRefers with
  | qualified hSpace hHome hDeclared =>
      simp only [resolve, hSpace, resolveQualified, hHome, hDeclared, if_true]
  | own hSpace hDeclared => simp only [resolve, hSpace, resolveName, hDeclared, if_true]
  | explicit hSpace hOwn hImport hFound =>
      simp only [resolve, hSpace, resolveName, if_neg hOwn, hImport, hFound, if_true]
  | wildcard hSpace hOwn hImport hFirst =>
      simp only [resolve, hSpace, resolveName, if_neg hOwn, hImport, hFirst]
  | root hSpace hOwn hImport hFirst hRoot =>
      simp only [resolve, hSpace, resolveName, if_neg hOwn, hImport, hFirst, hRoot, if_true]

end ModelFile

namespace ModelFiles

variable {files : ModelFiles}

/-- The names of all declarations are simple. -/
def HasSimpleNames (files : ModelFiles) : Prop :=
  ∀ found ∈ declarations files, IsSimpleName found.2.name

instance (files : ModelFiles) : Decidable (HasSimpleNames files) :=
  inferInstanceAs (Decidable (∀ found ∈ declarations files, IsSimpleName found.2.name))

/-- The file of a declaration stands under its namespace. -/
theorem IsLoaded.find?_of_mem_declarations (hFiles : IsLoaded files) {file : ModelFile}
    {d : Declaration} (hMem : (file, d) ∈ declarations files) :
    Table.find? files file.space = some file := by
  obtain ⟨entry, hEntry, rfl⟩ := List.mem_map.mp (mem_declarations_iff.mp hMem).1
  refine Table.find?_of_mem hFiles.sorted ?_
  rw [← hFiles.keyed entry hEntry]
  exact hEntry

/-- A declaration is found under its own name and under no other one, provided that the name is
simple. Otherwise it is not found at all. -/
theorem IsLoaded.find?_eq_some_iff (hFiles : IsLoaded files) {fqn : String} {file : ModelFile}
    {d : Declaration} :
    find? files fqn = some (file, d) ↔
      (file, d) ∈ declarations files ∧ IsSimpleName d.name ∧ d.fqn = fqn := by
  constructor
  · intro hFound
    obtain ⟨hFile, hMem, _, hName⟩ := hFiles.of_findDeclaration hFound
    simp only [find?, Option.bind_eq_bind, Option.bind_eq_some_iff] at hFound
    obtain ⟨⟨space, name⟩, hSplit, other, _, found, hDeclared, hSame⟩ := hFound
    cases hSame
    obtain ⟨_, rfl⟩ := ModelFile.mem_of_declaration? hDeclared
    exact ⟨mem_declarations hFile hMem, isSimpleName_of_splitQualified hSplit, hName⟩
  · rintro ⟨hMem, hSimple, rfl⟩
    have hFile := hFiles.find?_of_mem_declarations hMem
    obtain ⟨hMade, _⟩ := hFiles.of_find? hFile
    have hDeclared : d ∈ file.declarations := (mem_declarations_iff.mp hMem).2
    have hText := Namespace.isNamespaceText_of_parseVersioned hMade.versioned
    rw [Declaration.fqn, hMade.spaces d hDeclared]
    simp [find?, splitQualified_qualify hText.nonempty hSimple, hFile,
      ModelFile.declaration?_of_mem hMade hDeclared]

/-- What a file declares is found under its qualified name. -/
theorem IsLoaded.find?_qualify (hFiles : IsLoaded files) (hNames : HasSimpleNames files)
    {space name : String} {file : ModelFile} {d : Declaration}
    (hFile : Table.find? files space = some file) (hDeclared : file.declaration? name = some d) :
    find? files (qualify space name) = some (file, d) := by
  obtain ⟨hMem, rfl⟩ := ModelFile.mem_of_declaration? hDeclared
  obtain ⟨hMade, rfl⟩ := hFiles.of_find? hFile
  have hDeclaration := mem_declarations hFile hMem
  refine hFiles.find?_eq_some_iff.mpr ⟨hDeclaration, hNames _ hDeclaration, ?_⟩
  rw [Declaration.fqn, hMade.spaces d hMem]

theorem IsLoaded.exists_find? (hFiles : IsLoaded files) (hNames : HasSimpleNames files)
    {space name : String} {file : ModelFile} (hFile : Table.find? files space = some file)
    (hDeclared : (file.declaration? name).isSome = true) :
    (find? files (qualify space name)).isSome = true := by
  obtain ⟨d, hD⟩ := Option.isSome_iff_exists.mp hDeclared
  rw [hFiles.find?_qualify hNames hFile hD]
  rfl

theorem exists_file_of_declares {space name : String} (hDeclares : declares files space name = true) :
    ∃ home, Table.find? files space = some home ∧ (home.declaration? name).isSome = true := by
  unfold declares at hDeclares
  split at hDeclares
  · rename_i home hHome
    exact ⟨home, hHome, hDeclares⟩
  · cases hDeclares

/-- A reference that is resolved stands for a declaration, however it was written. -/
theorem IsLoaded.find?_of_resolve (hFiles : IsLoaded files) (hNames : HasSimpleNames files)
    {file : ModelFile} (hFile : Table.find? files file.space = some file)
    {type : Metamodel.TypeName} {target : String}
    (hResolved : file.resolve files type = .ok target) : (find? files target).isSome = true := by
  cases ModelFile.refersTo_of_resolve hResolved with
  | qualified _ hHome hDeclared => exact hFiles.exists_find? hNames hHome hDeclared
  | own _ hDeclared => exact hFiles.exists_find? hNames hFile hDeclared
  | explicit _ _ _ hFound => exact hFound
  | wildcard _ _ _ hFirst =>
      obtain ⟨hDeclares, _⟩ := List.find?_eq_some_iff_append.mp hFirst
      obtain ⟨home, hHome, hDeclared⟩ := exists_file_of_declares hDeclares
      exact hFiles.exists_find? hNames hHome hDeclared
  | root _ _ _ _ hRoot =>
      have hTypes : ∀ name ∈ rootTypes, (Root.file.declaration? name).isSome = true := by decide
      exact hFiles.exists_find? hNames hFiles.root (hTypes _ (List.contains_iff_mem.mp hRoot))

/-- Every declaration is the one that is found under its name. -/
theorem IsLoaded.find?_fqn (hFiles : IsLoaded files) (hNames : HasSimpleNames files)
    {file : ModelFile} {d : Declaration} (hMem : (file, d) ∈ declarations files) :
    find? files d.fqn = some (file, d) :=
  hFiles.find?_eq_some_iff.mpr ⟨hMem, hNames _ hMem, rfl⟩

end ModelFiles

/-! ## Maps of strict indexes -/

namespace TypeIndex

variable {files : ModelFiles} {index : TypeIndex}

/-- Every declared map of a strict build is indexed. -/
theorem exists_map?_of_mem (hBuild : build files .strict = .ok index) {file : ModelFile}
    {d : Declaration} {key value : PropertyType}
    (hMem : (file, d) ∈ ModelFiles.declarations files) (hBody : d.body = .mapBody key value) :
    ∃ m, index.map? d.fqn = some m := by
  obtain ⟨_, _, maps, _, _, hMaps, hPointers⟩ := build_eq_ok.mp hBuild
  obtain ⟨_, rfl⟩ := checkPointers_strict hPointers
  have hResult : file.resolveMap files d key value ∈ maps.map .ok := by
    rw [← BuildMode.collect_strict_eq_ok.mp hMaps]
    exact List.mem_filterMap.mpr ⟨(file, d), hMem, by simp only [hBody]⟩
  obtain ⟨m, hMapMem, hResolved⟩ := List.mem_map.mp hResult
  have hName := (resolveMap_eq_ok hResolved.symm).1
  -- Of the maps of one name the last one is arranged.
  obtain ⟨other, hOther⟩ : ∃ other, maps.reverse.find? (·.fqn = d.fqn) = some other :=
    Option.isSome_iff_exists.mp
      (List.find?_isSome.mpr ⟨m, List.mem_reverse.mpr hMapMem, by simpa using hName⟩)
  obtain ⟨_, hOtherName⟩ := Named.mem_of_find? hOther
  have hArranged : other ∈ arrange (·.fqn) (declaredNames files) maps := by
    refine mem_arrange.mpr ⟨?_, by rw [hOtherName]; exact hOther⟩
    exact hOtherName ▸ List.mem_map.mpr ⟨_, hMem, rfl⟩
  exact Option.isSome_iff_exists.mp
    (List.find?_isSome.mpr ⟨other, hArranged, by simpa using hOtherName⟩)

end TypeIndex

/-! ## What a property holds -/

/-- What can stand at a property. -/
inductive Holding where
  | primitive
  | scalar
  | enum
  | map
  | ofClass
  deriving DecidableEq, Repr

namespace Registry

variable {r : Registry} {p : ResolvedProperty} {target : String} {d : Declaration}

/-- The reference that is written at a property stands for a declaration, which the registry answers
under the name that the reference is resolved to. -/
structure RefersTo (r : Registry) (p : ResolvedProperty) (target : String) (d : Declaration) :
    Prop where
  written : ∃ file type, Table.find? r.files file.space = some file ∧
    ((∃ default, p.property.type = .declared type default) ∨
      p.property.type = .relationship type) ∧
    file.resolve r.files type = .ok target
  found : r.getType target = .ok d

/-- What stands at a property: a primitive value, or what the reference stands for. A scalar is
replaced by the type that it declares, and maps and classes are indexed. -/
def Holds (r : Registry) (p : ResolvedProperty) : Holding → Prop
  | .primitive => ∃ v, p.property.type = .value v ∧ p.type = .value v
  | .scalar => ∃ target d v, r.RefersTo p target d ∧ d.body = .scalarBody v ∧
    p.type = .scalar target v
  | .enum => ∃ target d values default, r.RefersTo p target d ∧ d.body = .enumBody values ∧
    p.type = .declared target default
  | .map => ∃ target d key value default m, r.RefersTo p target d ∧ d.body = .mapBody key value ∧
    p.type = .declared target default ∧ r.index.map? target = some m
  | .ofClass => ∃ target d body c, r.RefersTo p target d ∧ d.body = .classBody body ∧
    r.index.class? target = some c ∧
    ((∃ default, p.type = .declared target default) ∨
      p.type = .relationship target ∧ c.isIdentified = true)

/-- The holding by the resolved type alone. -/
def holding (r : Registry) (p : ResolvedProperty) : Holding :=
  match p.type with
  | .value _ => .primitive
  | .scalar .. => .scalar
  | .relationship _ => .ofClass
  | .declared target _ =>
    match (r.getType target).map Declaration.body with
    | .ok (.enumBody _) => .enum
    | .ok (.mapBody ..) => .map
    | _ => .ofClass

/-- Nothing else stands at a property than what its resolved type says. -/
theorem Holds.eq_holding {kind : Holding} (hHolds : r.Holds p kind) : kind = r.holding p := by
  unfold holding
  cases kind with
  | primitive =>
      obtain ⟨v, _, hType⟩ := hHolds
      rw [hType]
  | scalar =>
      obtain ⟨_, _, _, _, _, hType⟩ := hHolds
      rw [hType]
  | enum =>
      obtain ⟨_, _, _, _, hRefers, hBody, hType⟩ := hHolds
      simp only [hType, hRefers.found, Except.map, hBody]
  | map =>
      obtain ⟨_, _, _, _, _, _, hRefers, hBody, hType, _⟩ := hHolds
      simp only [hType, hRefers.found, Except.map, hBody]
  | ofClass =>
      obtain ⟨_, _, _, _, hRefers, hBody, _, ⟨_, hType⟩ | ⟨hType, _⟩⟩ := hHolds
      · simp only [hType, hRefers.found, Except.map, hBody]
      · rw [hType]

/-- What a property is resolved to stands at it, as long as it does not point to a class without an
identifier. -/
theorem IsStrict.exists_holds_of_resolveType (hStrict : r.IsStrict)
    (hNames : ModelFiles.HasSimpleNames r.files) {file : ModelFile}
    (hFile : Table.find? r.files file.space = some file)
    (hType : file.resolveType r.files p.property = .ok p.type)
    (hPoints : r.index.PointsToIdentified p.type) : ∃ kind, r.Holds p kind := by
  -- Whatever is referred to is declared, and it is this that the kinds of bodies speak about.
  have hRefers {type : Metamodel.TypeName} {target : String}
      (hWritten : (∃ default, p.property.type = .declared type default) ∨
        p.property.type = .relationship type)
      (hResolved : file.resolveOrFail r.files type = .ok target) :
      ∃ home d, ModelFiles.find? r.files target = some (home, d) ∧ r.RefersTo p target d := by
    have hTarget := Outcome.mapError_eq_ok.mp hResolved
    obtain ⟨⟨home, d⟩, hFound⟩ := Option.isSome_iff_exists.mp
      (hStrict.files.find?_of_resolve hNames hFile hTarget)
    exact ⟨home, d, hFound, ⟨file, type, hFile, hWritten, hTarget⟩,
      getType_eq_ok.mpr ⟨home, hFound⟩⟩
  unfold ModelFile.resolveType at hType
  split at hType
  · rename_i v hWritten
    exact ⟨.primitive, v, hWritten, (Except.ok.inj hType).symm⟩
  · rename_i type default hWritten
    obtain ⟨target, hTarget, hType⟩ := Outcome.bind_eq_ok.mp hType
    obtain ⟨home, d, hFound, hRefer⟩ := hRefers (.inl ⟨default, hWritten⟩) hTarget
    have hBody? : ModelFiles.body? r.files target = some d.body :=
      ModelFiles.body?_eq_some.mpr ⟨home, d, hFound, rfl⟩
    cases hBody : d.body with
    | scalarBody v =>
        simp only [hBody?, hBody, Outcome.pure_eq_ok] at hType
        exact ⟨.scalar, target, d, v, hRefer, hBody, hType.symm⟩
    | enumBody values =>
        simp only [hBody?, hBody] at hType
        have hSame : ResolvedType.declared target default = p.type := by
          split at hType
          · split at hType
            · simp at hType
            · rwa [Outcome.pure_eq_ok] at hType
          · rwa [Outcome.pure_eq_ok] at hType
        exact ⟨.enum, target, d, values, default, hRefer, hBody, hSame.symm⟩
    | mapBody key value =>
        simp only [hBody?, hBody, Outcome.pure_eq_ok] at hType
        obtain ⟨m, hIndexed⟩ := TypeIndex.exists_map?_of_mem hStrict.index
          (hStrict.files.mem_of_find? hFound) hBody
        rw [(hStrict.files.of_findDeclaration hFound).2.2.2] at hIndexed
        exact ⟨.map, target, d, key, value, default, m, hRefer, hBody, hType.symm, hIndexed⟩
    | classBody body =>
        simp only [hBody?, hBody, Outcome.pure_eq_ok] at hType
        obtain ⟨c, hIndexed⟩ := hStrict.exists_class? (hBody ▸ hBody?)
        exact ⟨.ofClass, target, d, body, c, hRefer, hBody, hIndexed, .inl ⟨default, hType.symm⟩⟩
  · rename_i type hWritten
    obtain ⟨target, hTarget, hType⟩ := Outcome.bind_eq_ok.mp hType
    obtain ⟨home, d, hFound, hRefer⟩ := hRefers (.inr hWritten) hTarget
    have hBody? : ModelFiles.body? r.files target = some d.body :=
      ModelFiles.body?_eq_some.mpr ⟨home, d, hFound, rfl⟩
    split at hType
    · rename_i body hClass
      rw [Outcome.pure_eq_ok] at hType
      have hBody : d.body = .classBody body := Option.some.inj (hBody?.symm.trans hClass)
      obtain ⟨c, hIndexed⟩ := hStrict.exists_class? hClass
      exact ⟨.ofClass, target, d, body, c, hRefer, hBody, hIndexed,
        .inr ⟨hType.symm, hPoints target c hType.symm hIndexed⟩⟩
    · simp at hType

/-- Something stands at every property of an indexed class. -/
theorem IsStrict.exists_holds_of_mem (hStrict : r.IsStrict)
    (hNames : ModelFiles.HasSimpleNames r.files) {c : ResolvedClass} (hClass : c ∈ r.index.classes)
    (hMem : p ∈ c.properties) : ∃ kind, r.Holds p kind := by
  have hResolves := TypeIndex.resolves_of_mem hStrict.files hStrict.index hClass
  rcases hResolves.property_cases hStrict.files hMem with
    ⟨owner, rfl | rfl⟩ | ⟨_, file, d, _, hDeclared, _, _, hType⟩
  · exact ⟨.primitive, _, rfl, rfl⟩
  · exact ⟨.primitive, _, rfl, rfl⟩
  · exact hStrict.exists_holds_of_resolveType hNames
      (hStrict.files.find?_of_mem_declarations hDeclared) hType
      ((TypeIndex.isClosed_of_strict hStrict.files hStrict.index).properties c hClass p hMem)

/-- Something stands at the keys and at the values of an indexed map. -/
theorem IsStrict.exists_holds_of_map (hStrict : r.IsStrict)
    (hNames : ModelFiles.HasSimpleNames r.files) {m : ResolvedMap} (hMem : m ∈ r.index.maps) :
    (∃ kind, r.Holds m.key kind) ∧ ∃ kind, r.Holds m.value kind := by
  obtain ⟨whole, hChecked⟩ := TypeIndex.exists_isChecked hStrict.files hStrict.index
  obtain ⟨file, d, key, value, hDeclared, _, hResolved⟩ :=
    hChecked.isWhole.maps m ((hChecked.maps m).mp hMem).1
  have hFile := hStrict.files.find?_of_mem_declarations hDeclared
  obtain ⟨_, hKey, hValue, hKeyType⟩ := TypeIndex.resolveMap_eq_ok hResolved
  have hHolds {p : ResolvedProperty} {property : Property}
      (hPart : file.resolveProperty r.files d.fqn property = .ok p)
      (hPoints : r.index.PointsToIdentified p.type) : ∃ kind, r.Holds p kind := by
    obtain ⟨hType, hSame, _⟩ := ClassBody.resolveProperty_eq_ok hPart
    rw [← hSame] at hType
    exact hStrict.exists_holds_of_resolveType hNames hFile hType hPoints
  refine ⟨hHolds hKey fun target c hTarget _ => ?_,
    hHolds hValue (hChecked.pointsToIdentified_of_map hMem)⟩
  -- Keys are texts or instants, and no pointers.
  rw [hTarget] at hKeyType
  cases hKeyType

end Registry

end DomainModels
