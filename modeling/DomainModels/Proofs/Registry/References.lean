import DomainModels.Proofs.Index.Carry
import DomainModels.Proofs.Registry.Targets
import Mathlib.Data.List.Find

/-!
Which references are kept when namespaces join or leave a set of model files.

Whatever is resolved is found in a namespace that is there, and the namespaces that are searched
before that one do not declare the name. A namespace that joins is searched only where it is
imported, so that it cannot come before one in which a checked file finds a name. A namespace that
leaves takes only its own declarations along.
-/

namespace DomainModels

open Metamodel (TypeName)

/-- The declaration that the reference at a property stands for. -/
def ResolvedType.reference? : ResolvedType → Option String
  | .value _ => none
  | .scalar fqn _ | .declared fqn _ | .relationship fqn => some fqn

/-- A property is resolved together with the reference by which its type is written. -/
theorem ModelFile.resolve_reference {files : ModelFiles} {file : ModelFile} {p : Property}
    {type : ResolvedType} (hType : file.resolveType files p = .ok type) :
    p.type.reference?.map (file.resolve files) = type.reference?.map .ok := by
  unfold resolveType at hType
  cases hWritten : p.type with
  | value v =>
      rw [hWritten] at hType
      cases hType
      rfl
  | declared written default =>
      simp only [hWritten, Outcome.bind_eq_ok, resolveOrFail, Outcome.mapError_eq_ok] at hType
      obtain ⟨target, hTarget, hType⟩ := hType
      have hSame : type.reference? = some target := by
        repeat' split at hType
        all_goals simp only [Outcome.pure_eq_ok, Outcome.bind_eq_ok, Outcome.throw_ne_ok,
          false_and, exists_false] at hType
        all_goals exact hType ▸ rfl
      simp [PropertyType.reference?, hSame, hTarget]
  | relationship written =>
      simp only [hWritten, Outcome.bind_eq_ok, resolveOrFail, Outcome.mapError_eq_ok] at hType
      obtain ⟨target, hTarget, hType⟩ := hType
      split at hType
      · rw [Outcome.pure_eq_ok] at hType
        simp [PropertyType.reference?, ResolvedType.reference?, ← hType, hTarget]
      · simp at hType

namespace ModelFiles

variable {files : ModelFiles} {fqn : String} {file : ModelFile} {d : Declaration}

/-! ## The references of what is resolved -/

/-- A resolved class has the super type that its declaration writes. -/
theorem Resolves.exists_body (hFiles : IsLoaded files) {c : ResolvedClass}
    (hResolves : Resolves files fqn c) : ∃ file d body parent,
      findClass files fqn = .ok (file, d, body) ∧
      body.resolveSuper files file d = .ok c.superType ∧
      body.resolve files file d parent = .ok c := by
  cases hResolves with
  | base hFound hSuper hResolved =>
      obtain ⟨_, _, _, _, rfl⟩ := ClassBody.resolve_eq_ok hResolved
      exact ⟨_, _, _, _, hFound, ClassBody.superOf_eq_none hSuper, hResolved⟩
  | sub hFound hSuper hParent hResolved =>
      obtain ⟨_, _, _, _, rfl⟩ := ClassBody.resolve_eq_ok hResolved
      refine ⟨_, _, _, _, hFound, ?_, hResolved⟩
      rw [(ClassBody.superOf_eq_some hSuper).1, ← hFiles.fqn_of_resolves hParent]
      rfl

/-- The references of a class that is resolved stand for the class itself, for its super type or
for what its properties hold. -/
theorem Resolves.exists_resolve (hFiles : IsLoaded files) {c : ResolvedClass}
    (hResolves : Resolves files fqn c) (hFound : find? files fqn = some (file, d)) {type : TypeName}
    (hMem : type ∈ d.body.references) :
    ∃ target, file.resolve files type = .ok target ∧
      (target = fqn ∨ c.superType = some target ∨
        ∃ p ∈ c.properties, p.type.reference? = some target) := by
  obtain ⟨_, _, body, parent, hClassFound, hSuper, hResolved⟩ := hResolves.exists_body hFiles
  obtain ⟨hSame, hClass⟩ := findClass_eq_ok.mp hClassFound
  cases hFound.symm.trans hSame
  rw [Declaration.class?_eq_some.mp hClass, DeclarationBody.references, List.mem_append] at hMem
  rcases hMem with hMem | hMem
  · rw [ClassBody.resolveSuper, Option.mem_toList.mp hMem] at hSuper
    simp only [Outcome.bind_eq_ok, ModelFile.resolveOrFail, Outcome.mapError_eq_ok] at hSuper
    obtain ⟨target, hTarget, hSuper⟩ := hSuper
    refine ⟨target, hTarget, ?_⟩
    split at hSuper
    · rename_i hSelf
      exact .inl (hSelf.trans (hFiles.of_findDeclaration hFound).2.2.2)
    · rw [Outcome.pure_eq_ok] at hSuper
      exact .inr (.inl hSuper.symm)
  · obtain ⟨p, hProperty, hWritten⟩ := List.mem_filterMap.mp hMem
    obtain ⟨declared, hDeclared, _, _, rfl⟩ := ClassBody.resolve_eq_ok hResolved
    rw [← ClassBody.map_property_of_resolveOwn hDeclared] at hProperty
    obtain ⟨q, hQ, rfl⟩ := List.mem_map.mp hProperty
    have hOwn := ClassBody.resolveProperty_of_resolveOwn hDeclared hQ
    have hReference := ModelFile.resolve_reference (ClassBody.resolveProperty_eq_ok hOwn).1
    rw [hWritten] at hReference
    obtain ⟨target, hTarget, hSame⟩ := Option.map_eq_some_iff.mp hReference.symm
    exact ⟨target, hSame.symm, .inr (.inr ⟨q,
      List.mem_append_left _ (List.mem_append_left _ hQ), hTarget⟩)⟩

/-- The references of a map that is resolved stand for what its keys and its values hold. -/
theorem exists_resolve_of_resolveMap {key value : PropertyType} {m : ResolvedMap}
    (hBody : d.body = .mapBody key value) (hResolved : file.resolveMap files d key value = .ok m)
    {type : TypeName} (hMem : type ∈ d.body.references) :
    ∃ target, file.resolve files type = .ok target ∧
      (m.key.type.reference? = some target ∨ m.value.type.reference? = some target) := by
  obtain ⟨_, hKey, hValue, _⟩ := TypeIndex.resolveMap_eq_ok hResolved
  have hKey := ModelFile.resolve_reference (ClassBody.resolveProperty_eq_ok hKey).1
  have hValue := ModelFile.resolve_reference (ClassBody.resolveProperty_eq_ok hValue).1
  rw [hBody, DeclarationBody.references, List.mem_append, Option.mem_toList, Option.mem_toList]
    at hMem
  rcases hMem with hMem | hMem
  · rw [Declaration.mapPart, hMem] at hKey
    obtain ⟨target, hTarget, hSame⟩ := Option.map_eq_some_iff.mp hKey.symm
    exact ⟨target, hSame.symm, .inl hTarget⟩
  · rw [Declaration.mapPart, hMem] at hValue
    obtain ⟨target, hTarget, hSame⟩ := Option.map_eq_some_iff.mp hValue.symm
    exact ⟨target, hSame.symm, .inr hTarget⟩

/-- What a property is resolved to is declared. -/
theorem IsLoaded.find?_of_reference (hFiles : IsLoaded files) (hNames : HasSimpleNames files)
    (hFile : Table.find? files file.space = some file) {p : Property} {type : ResolvedType}
    (hType : file.resolveType files p = .ok type) {target : String}
    (hReference : type.reference? = some target) : (find? files target).isSome = true := by
  have hSame := ModelFile.resolve_reference hType
  rw [hReference] at hSame
  obtain ⟨written, _, hResolved⟩ := Option.map_eq_some_iff.mp hSame
  exact hFiles.find?_of_resolve hNames hFile hResolved

theorem Resolves.find?_of_reference (hFiles : IsLoaded files) (hNames : HasSimpleNames files)
    {c : ResolvedClass} (hResolves : Resolves files fqn c) {p : ResolvedProperty}
    (hMem : p ∈ c.properties) {target : String} (hReference : p.type.reference? = some target) :
    (find? files target).isSome = true := by
  rcases hResolves.property_cases hFiles hMem with
    ⟨owner, rfl | rfl⟩ | ⟨_, file, d, body, hDeclared, _, _, hType⟩
  · cases hReference
  · cases hReference
  · exact hFiles.find?_of_reference hNames (hFiles.find?_of_mem_declarations hDeclared) hType
      hReference

/-! ## Joining -/

/-- Every file of one set stands under the same namespace in another one. -/
def Within (small large : ModelFiles) : Prop :=
  ∀ space file, Table.find? small space = some file → Table.find? large space = some file

/-- Every namespace from which a file imports all types is there. -/
def HasWildcards (files : ModelFiles) (file : ModelFile) : Prop :=
  ∀ space ∈ file.wildcardImports, ∃ home, Table.find? files space = some home

section

variable {small large : ModelFiles}

theorem Within.find? (hWithin : Within small large) {found : ModelFile × Declaration}
    (hFound : ModelFiles.find? small fqn = some found) :
    ModelFiles.find? large fqn = some found := by
  simp only [ModelFiles.find?, Option.bind_eq_bind, Option.bind_eq_some_iff] at hFound ⊢
  obtain ⟨parts, hSplit, home, hHome, hDeclared⟩ := hFound
  exact ⟨parts, hSplit, home, hWithin _ _ hHome, hDeclared⟩

theorem Within.declares (hWithin : Within small large) {space : String} {home : ModelFile}
    (hHome : Table.find? small space = some home) (name : String) :
    ModelFiles.declares large space name = ModelFiles.declares small space name := by
  simp only [ModelFiles.declares, hHome, hWithin _ _ hHome]

/-- A reference that is resolved is not captured by what joins. -/
theorem Within.resolve (hWithin : Within small large) (hWildcards : HasWildcards small file)
    {type : TypeName} {target : String} (hResolved : file.resolve small type = .ok target) :
    file.resolve large type = .ok target := by
  refine ModelFile.resolve_of_refersTo ?_
  have hSearch : file.wildcardImports.find? (ModelFiles.declares large · type.name) =
      file.wildcardImports.find? (ModelFiles.declares small · type.name) :=
    List.find?_congr fun space hMem => by
      obtain ⟨home, hHome⟩ := hWildcards space hMem
      exact hWithin.declares hHome type.name
  cases ModelFile.refersTo_of_resolve hResolved with
  | qualified hSpace hHome hDeclared => exact .qualified hSpace (hWithin _ _ hHome) hDeclared
  | own hSpace hDeclared => exact .own hSpace hDeclared
  | explicit hSpace hOwn hImport hFound =>
      obtain ⟨found, hFound⟩ := Option.isSome_iff_exists.mp hFound
      exact .explicit hSpace hOwn hImport (hWithin.find? hFound ▸ rfl)
  | wildcard hSpace hOwn hImport hFirst =>
      exact .wildcard hSpace hOwn hImport (hSearch.trans hFirst)
  | root hSpace hOwn hImport hFirst hRoot =>
      exact .root hSpace hOwn hImport (hSearch.trans hFirst) hRoot

/-- Where the files are checked, no reference is captured by what joins. -/
theorem Within.keeps (hWithin : Within small large) (hSmall : IsLoaded small)
    (hNames : HasSimpleNames small) (hFile : Table.find? small file.space = some file)
    (hWildcards : HasWildcards small file) (type : TypeName) : Keeps small large file type := by
  intro target hResolved
  refine ⟨hWithin.resolve hWildcards hResolved, ?_⟩
  obtain ⟨found, hFound⟩ := Option.isSome_iff_exists.mp
    (hSmall.find?_of_resolve hNames hFile hResolved)
  rw [hFound, hWithin.find? hFound]

end

/-- A strict build checks that every namespace is there from which all types are imported. -/
theorem IsLoaded.hasWildcards (hFiles : IsLoaded files) {index : TypeIndex}
    (hBuild : TypeIndex.build files .strict = .ok index)
    (hFile : Table.find? files file.space = some file) : HasWildcards files file := by
  intro space hMem
  obtain ⟨_, _, _, hMade⟩ := hFiles.made _ (Table.mem_of_find? hFile)
  obtain ⟨node, hNode, rfl⟩ := ModelFile.exists_import_of_wildcard hMade hMem
  obtain ⟨checked, _, _, hChecked, _⟩ := TypeIndex.build_eq_ok.mp hBuild
  have hValue : file ∈ Table.values files :=
    List.mem_map.mpr ⟨_, Table.mem_of_find? hFile, rfl⟩
  have hOk : file.check files ∈ checked.map .ok := by
    rw [← BuildMode.collect_strict_eq_ok.mp hChecked]
    exact List.mem_map_of_mem hValue
  obtain ⟨_, _, hOk⟩ := List.mem_map.mp hOk
  have hOk := hOk.symm
  simp only [ModelFile.check, Outcome.bind_eq_ok, Outcome.exists_unit, Outcome.forM_eq_ok] at hOk
  have hImport := hOk.1 node hNode
  unfold ModelFile.checkImport at hImport
  split at hImport
  · cases hImport
  · rename_i home hHome
    exact ⟨home, hHome⟩

/-! ## Leaving -/

/-- A name is declared in the file of a namespace. -/
def DeclaredIn (files : ModelFiles) (space fqn : String) : Prop :=
  ∃ file d, find? files fqn = some (file, d) ∧ file.space = space

theorem not_declaredIn_of_find? {space : String} (hFound : find? files fqn = some (file, d))
    (hOther : file.space ≠ space) : ¬ DeclaredIn files space fqn := by
  rintro ⟨_, _, hSame, hSpace⟩
  cases hFound.symm.trans hSame
  exact hOther hSpace

/-- What is found after a namespace has left is what was found in the other ones. -/
theorem IsLoaded.find?_erase (hFiles : IsLoaded files) {space : String} :
    find? (Table.erase space files) fqn = some (file, d) ↔
      find? files fqn = some (file, d) ∧ file.space ≠ space := by
  simp only [find?, Option.bind_eq_bind, Option.bind_eq_some_iff, Table.find?_erase]
  constructor
  · rintro ⟨parts, hSplit, home, hHome, other, hDeclared, hSame⟩
    cases hSame
    split at hHome
    · cases hHome
    · rename_i hOther
      refine ⟨⟨parts, hSplit, file, hHome, d, hDeclared, rfl⟩, ?_⟩
      rw [(hFiles.of_find? hHome).2]
      exact hOther
  · rintro ⟨⟨parts, hSplit, home, hHome, other, hDeclared, hSame⟩, hOther⟩
    cases hSame
    rw [(hFiles.of_find? hHome).2] at hOther
    exact ⟨parts, hSplit, file, by rw [if_neg hOther]; exact hHome, d, hDeclared, rfl⟩

theorem IsLoaded.find?_erase_of_not_declaredIn (hFiles : IsLoaded files) {space : String}
    (hOther : ¬ DeclaredIn files space fqn) :
    find? (Table.erase space files) fqn = find? files fqn := by
  refine Option.ext fun ⟨home, found⟩ => ?_
  rw [hFiles.find?_erase]
  exact and_iff_left_of_imp fun hFound hSpace => hOther ⟨_, _, hFound, hSpace⟩

theorem IsLoaded.not_declaredIn (hFiles : IsLoaded files) {space : String}
    (hFound : (find? (Table.erase space files) fqn).isSome = true) :
    ¬ DeclaredIn files space fqn := by
  obtain ⟨⟨file, d⟩, hFound⟩ := Option.isSome_iff_exists.mp hFound
  obtain ⟨hBefore, hOther⟩ := hFiles.find?_erase.mp hFound
  exact not_declaredIn_of_find? hBefore hOther

theorem IsLoaded.hasSimpleNames_erase (hFiles : IsLoaded files) (hNames : HasSimpleNames files)
    {space : String} (hSpace : space ≠ rootNamespace) :
    HasSimpleNames (Table.erase space files) := by
  rintro ⟨file, d⟩ hMem
  have hFile := (hFiles.erase hSpace).find?_of_mem_declarations hMem
  rw [Table.find?_erase] at hFile
  split at hFile
  · cases hFile
  · exact hNames _ (mem_declarations hFile (mem_declarations_iff.mp hMem).2)

theorem declares_erase (files : ModelFiles) (space other name : String) :
    declares (Table.erase space files) other name =
      (decide (other ≠ space) && declares files other name) := by
  unfold declares
  rw [Table.find?_erase]
  by_cases hSame : other = space <;> simp [hSame]

/-- Where a declared name does not stand for anything of a namespace, it is declared elsewhere. -/
theorem IsLoaded.ne_of_not_declaredIn (hFiles : IsLoaded files) (hNames : HasSimpleNames files)
    {space other name : String} {home : ModelFile} (hHome : Table.find? files other = some home)
    (hDeclared : (home.declaration? name).isSome = true)
    (hOther : ¬ DeclaredIn files space (qualify other name)) : other ≠ space := by
  obtain ⟨found, hFound⟩ := Option.isSome_iff_exists.mp hDeclared
  rintro rfl
  exact hOther ⟨home, found, hFiles.find?_qualify hNames hHome hFound, (hFiles.of_find? hHome).2⟩

/-- The first of some namespaces that declares a name is the same one after another has left: those
before it do not declare the name later on, either. -/
theorem find?_declares_erase {spaces : List String} {space name : String}
    (hStays : ∀ other, spaces.find? (declares files · name) = some other → other ≠ space) :
    spaces.find? (declares (Table.erase space files) · name) =
      spaces.find? (declares files · name) := by
  induction spaces with
  | nil => rfl
  | cons first rest ih =>
      rw [List.find?_cons] at hStays
      rw [List.find?_cons, List.find?_cons, declares_erase]
      cases hFirst : declares files first name with
      | false =>
          rw [hFirst] at hStays
          rw [Bool.and_false]
          exact ih hStays
      | true =>
          rw [hFirst] at hStays
          rw [Bool.and_true, decide_eq_true (hStays first rfl)]

/-- A reference that stands for a declaration of another namespace goes on to do so. -/
theorem IsLoaded.resolve_erase (hFiles : IsLoaded files) (hNames : HasSimpleNames files)
    {space target : String} {type : TypeName} (hResolved : file.resolve files type = .ok target)
    (hOther : ¬ DeclaredIn files space target) :
    file.resolve (Table.erase space files) type = .ok target := by
  refine ModelFile.resolve_of_refersTo ?_
  cases ModelFile.refersTo_of_resolve hResolved with
  | qualified hSpace hHome hDeclared =>
      refine .qualified hSpace ?_ hDeclared
      rw [Table.find?_erase, if_neg (hFiles.ne_of_not_declaredIn hNames hHome hDeclared hOther)]
      exact hHome
  | own hSpace hDeclared => exact .own hSpace hDeclared
  | explicit hSpace hOwn hImport hFound =>
      refine .explicit hSpace hOwn hImport ?_
      rw [hFiles.find?_erase_of_not_declaredIn hOther]
      exact hFound
  | wildcard hSpace hOwn hImport hFirst =>
      refine .wildcard hSpace hOwn hImport ((find?_declares_erase fun other hFound => ?_).trans hFirst)
      cases hFirst.symm.trans hFound
      obtain ⟨hDeclares, _⟩ := List.find?_eq_some_iff_append.mp hFirst
      obtain ⟨home, hHome, hDeclared⟩ := exists_file_of_declares hDeclares
      exact hFiles.ne_of_not_declaredIn hNames hHome hDeclared hOther
  | root hSpace hOwn hImport hFirst hRoot =>
      refine .root hSpace hOwn hImport ((find?_declares_erase fun other hFound => ?_).trans hFirst)
        hRoot
      cases hFirst.symm.trans hFound

/-- A declaration carries over to the other namespaces if neither it nor what its references stand
for leaves. -/
theorem IsLoaded.carries_erase (hFiles : IsLoaded files) (hNames : HasSimpleNames files)
    {space : String} (hStays : ¬ DeclaredIn files space fqn)
    (hTargets : ∀ file d, find? files fqn = some (file, d) → ∀ type ∈ d.body.references, ∀ target,
      file.resolve files type = .ok target → ¬ DeclaredIn files space target) :
    Carries files (Table.erase space files) fqn := by
  intro file d hFound
  refine ⟨(hFiles.find?_erase_of_not_declaredIn hStays).trans hFound, fun type hMem target hTarget => ?_⟩
  have hOther := hTargets file d hFound type hMem target hTarget
  exact ⟨hFiles.resolve_erase hNames hTarget hOther, hFiles.find?_erase_of_not_declaredIn hOther⟩

/-- A reference by which a declaration refers to a namespace stands for something else as soon as
that namespace has left. -/
def FindsSubstitute (files : ModelFiles) (space fqn : String) : Prop :=
  ∃ file d type target other, find? files fqn = some (file, d) ∧ type ∈ d.body.references ∧
    file.resolve files type = .ok target ∧ DeclaredIn files space target ∧
    file.resolve (Table.erase space files) type = .ok other

/-- Where nothing takes the place of what has left, a declaration carries over from the other
namespaces. -/
theorem IsLoaded.carries_of_erase (hFiles : IsLoaded files) (hNames : HasSimpleNames files)
    {space : String} (hNone : ¬ FindsSubstitute files space fqn)
    (hResolved : ∀ file d, find? files fqn = some (file, d) → ∀ type ∈ d.body.references,
      ∃ target, file.resolve files type = .ok target) :
    Carries (Table.erase space files) files fqn := by
  intro file d hFound
  have hBefore := (hFiles.find?_erase.mp hFound).1
  refine ⟨hBefore, fun type hMem other hOther => ?_⟩
  obtain ⟨target, hTarget⟩ := hResolved file d hBefore type hMem
  have hKept : ¬ DeclaredIn files space target := fun hLeaves =>
    hNone ⟨file, d, type, target, other, hBefore, hMem, hTarget, hLeaves, hOther⟩
  cases hOther.symm.trans (hFiles.resolve_erase hNames hTarget hKept)
  exact ⟨hTarget, (hFiles.find?_erase_of_not_declaredIn hKept).symm⟩

end ModelFiles

end DomainModels
