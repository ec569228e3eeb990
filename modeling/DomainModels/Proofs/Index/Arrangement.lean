import DomainModels.Proofs.Index.Modes
import DomainModels.Proofs.Schema.Arrangement

/-!
Builds of files whose declarations come in another order.

A reference is resolved by the names that the files declare and import, so that it stands for the
same in every order. Hence the same classes and maps are resolved, with the same faults, and the
indexes differ in the order of their entries alone.
-/

namespace DomainModels

open Metamodel (TypeName)
open ModelFiles (Resolves IsLoaded)

/-- Faults are reported at the same places. -/
theorem ModelFile.Rearranges.illegal_eq {file other : ModelFile} (h : file.Rearranges other) :
    file.illegal = other.illegal := by
  funext location cause
  rw [ModelFile.illegal, h.fileName, ModelFile.illegal]

namespace ModelFiles

/-- The files stand under the same namespaces, and differ in the order of their declarations. -/
def Rearranges (files others : ModelFiles) : Prop :=
  List.Forall₂ (fun entry other => entry.1 = other.1 ∧ entry.2.Rearranges other.2) files others

variable {files others : ModelFiles} {file other : ModelFile}

theorem Rearranges.refl (files : ModelFiles) : Rearranges files files :=
  List.forall₂_same.mpr fun entry _ => ⟨rfl, .refl entry.2⟩

theorem Rearranges.symm (h : Rearranges files others) : Rearranges others files :=
  List.Forall₂.flip (h.imp fun _ _ hEntry => ⟨hEntry.1.symm, hEntry.2.symm⟩)

/-- A file may join, or take the place of the one that has been there. -/
theorem Rearranges.put (h : Rearranges files others) (hFile : file.Rearranges other)
    (space : String) : Rearranges (Table.put space file files) (Table.put space other others) := by
  induction h with
  | nil => exact .cons ⟨rfl, hFile⟩ .nil
  | @cons entry otherEntry rest otherRest hEntry hRest ih =>
      unfold Table.put
      rw [← hEntry.1]
      split
      · exact .cons ⟨rfl, hFile⟩ (.cons hEntry hRest)
      · split
        · exact .cons ⟨rfl, hFile⟩ hRest
        · exact .cons hEntry ih

theorem Rearranges.lookup (h : Rearranges files others) (space : String) :
    Option.Rel ModelFile.Rearranges (Table.find? files space) (Table.find? others space) := by
  induction h with
  | nil => exact .none
  | @cons entry otherEntry rest otherRest hEntry hRest ih =>
      rw [Table.find?_cons, Table.find?_cons, ← hEntry.1]
      split
      · exact .some hEntry.2
      · exact ih

/-- Under a fully-qualified name the same declaration is found. -/
theorem Rearranges.find? (h : Rearranges files others) (fqn : String) :
    Option.Rel (fun found other => found.1.Rearranges other.1 ∧ found.2 = other.2)
      (ModelFiles.find? files fqn) (ModelFiles.find? others fqn) := by
  unfold ModelFiles.find?
  cases splitQualified fqn with
  | none => exact .none
  | some parts =>
      have hLookup := h.lookup parts.1
      simp only [Option.bind_eq_bind, Option.bind_some]
      generalize Table.find? files parts.1 = found, Table.find? others parts.1 = same at hLookup ⊢
      cases hLookup with
      | none => exact .none
      | @some file _ hFile =>
          simp only [Option.bind_some, ← hFile.declared]
          cases file.declaration? parts.2 with
          | none => exact .none
          | some d => exact .some ⟨hFile, rfl⟩

section
variable (h : Rearranges files others) (hFile : file.Rearranges other)
include h

/-! ## References -/

theorem Rearranges.declares_eq : declares files = declares others := by
  funext space name
  have hLookup := h.lookup space
  unfold declares
  generalize Table.find? files space = found, Table.find? others space = same at hLookup ⊢
  cases hLookup with
  | none => rfl
  | some hFile => simp only [hFile.declared]

theorem Rearranges.map_find? (fqn : String) :
    (ModelFiles.find? files fqn).map (·.2) = (ModelFiles.find? others fqn).map (·.2) := by
  have hFind := h.find? fqn
  generalize ModelFiles.find? files fqn = found, ModelFiles.find? others fqn = same at hFind ⊢
  cases hFind with
  | none => rfl
  | some hFound => rw [Option.map_some, Option.map_some, hFound.2]

theorem Rearranges.body?_eq : body? files = body? others := by
  funext fqn
  have hFound := congrArg (Option.map Declaration.body) (h.map_find? fqn)
  simpa only [body?, Option.map_map, Function.comp_def] using hFound

theorem Rearranges.isSome_find? (fqn : String) :
    (ModelFiles.find? files fqn).isSome = (ModelFiles.find? others fqn).isSome := by
  simpa only [Option.isSome_map] using congrArg Option.isSome (h.map_find? fqn)

theorem Rearranges.resolveQualified_eq (type : TypeName) (space : String) :
    ModelFile.resolveQualified files type space = ModelFile.resolveQualified others type space := by
  have hLookup := h.lookup space
  unfold ModelFile.resolveQualified
  generalize Table.find? files space = found, Table.find? others space = same at hLookup ⊢
  cases hLookup with
  | none => rfl
  | some hFile => simp only [hFile.declared]

include hFile

/-- A reference stands for the same, or is refused for the same reason. -/
theorem Rearranges.resolve_eq (type : TypeName) :
    file.resolve files type = other.resolve others type := by
  simp only [ModelFile.resolve, ModelFile.resolveName, h.resolveQualified_eq, h.declares_eq,
    h.isSome_find?, hFile.declared, hFile.space, hFile.explicitImports, hFile.wildcardImports]

theorem Rearranges.resolveOrFail_eq (type : TypeName) :
    file.resolveOrFail files type = other.resolveOrFail others type := by
  simp only [ModelFile.resolveOrFail, h.resolve_eq hFile]

theorem Rearranges.resolveType_eq (p : Property) :
    file.resolveType files p = other.resolveType others p := by
  simp only [ModelFile.resolveType, h.resolveOrFail_eq hFile, h.body?_eq, hFile.illegal_eq]

theorem Rearranges.resolveProperty_eq (owner : String) (p : Property) :
    file.resolveProperty files owner p = other.resolveProperty others owner p := by
  simp only [ModelFile.resolveProperty, h.resolveType_eq hFile]

theorem Rearranges.resolveMap_eq (d : Declaration) (key value : PropertyType) :
    file.resolveMap files d key value = other.resolveMap others d key value := by
  simp only [ModelFile.resolveMap, h.resolveProperty_eq hFile, hFile.illegal_eq]

/-! ## Classes -/

theorem Rearranges.resolveOwn_eq (d : Declaration) (seen : List String)
    (properties : List Property) :
    ClassBody.resolveOwn files file d seen properties =
      ClassBody.resolveOwn others other d seen properties := by
  induction properties generalizing seen with
  | nil => rfl
  | cons p rest ih =>
      simp only [ClassBody.resolveOwn, h.resolveProperty_eq hFile, hFile.illegal_eq, ih]

theorem Rearranges.superOf_eq (d : Declaration) (body : ClassBody) :
    body.superOf files file d = body.superOf others other d := by
  have hCheck (superType : String) :
      body.checkSuper files file d superType = body.checkSuper others other d superType := by
    have hFind := h.find? superType
    unfold ClassBody.checkSuper
    generalize ModelFiles.find? files superType = found,
      ModelFiles.find? others superType = same at hFind ⊢
    cases hFind with
    | none => rfl
    | some hFound => simp only [hFound.2, hFile.illegal_eq]
  simp only [ClassBody.superOf, ClassBody.resolveSuper, h.resolveOrFail_eq hFile,
    hFile.illegal_eq, hCheck]

theorem Rearranges.resolveBody_eq (d : Declaration) (body : ClassBody)
    (parent : Option ResolvedClass) :
    body.resolve files file d parent = body.resolve others other d parent := by
  have hInherited : ClassBody.checkInherited file = ClassBody.checkInherited other := by
    funext d inherited p
    simp only [ClassBody.checkInherited, hFile.illegal_eq]
  have hIdentifier : ClassBody.checkIdentifier file = ClassBody.checkIdentifier other := by
    funext d properties name
    simp only [ClassBody.checkIdentifier, hFile.illegal_eq]
  simp only [ClassBody.resolve, h.resolveOwn_eq hFile, hFile.illegal_eq, hInherited, hIdentifier]

end

theorem Rearranges.findClass (h : Rearranges files others) {fqn : String} {d : Declaration}
    {body : ClassBody} (hFound : findClass files fqn = .ok (file, d, body)) :
    ∃ other, file.Rearranges other ∧ ModelFiles.findClass others fqn = .ok (other, d, body) := by
  obtain ⟨hFind, hClass⟩ := findClass_eq_ok.mp hFound
  have hSame := h.find? fqn
  rw [hFind] at hSame
  generalize hOther : ModelFiles.find? others fqn = same at hSame
  cases hSame with
  | @some _ found hEntry =>
      obtain ⟨other, e⟩ := found
      obtain ⟨hFile, rfl⟩ := hEntry
      exact ⟨other, hFile, findClass_eq_ok.mpr ⟨hOther, hClass⟩⟩

/-- A class is resolved to the same, and so are the super types that it is resolved from. -/
theorem Resolves.rearranged (h : Rearranges files others) {fqn : String} {c : ResolvedClass}
    (hResolves : Resolves files fqn c) : Resolves others fqn c := by
  induction hResolves with
  | base hFound hSuper hResolved =>
      obtain ⟨other, hFile, hSame⟩ := h.findClass hFound
      exact .base hSame (h.superOf_eq hFile _ _ ▸ hSuper) (h.resolveBody_eq hFile _ _ _ ▸ hResolved)
  | sub hFound hSuper _ hResolved ih =>
      obtain ⟨other, hFile, hSame⟩ := h.findClass hFound
      exact .sub hSame (h.superOf_eq hFile _ _ ▸ hSuper) ih
        (h.resolveBody_eq hFile _ _ _ ▸ hResolved)

theorem Rearranges.resolves_iff (h : Rearranges files others) {fqn : String} {c : ResolvedClass} :
    Resolves files fqn c ↔ Resolves others fqn c :=
  ⟨.rearranged h, .rearranged h.symm⟩

/-! ## Checks of the files -/

theorem Rearranges.check (h : Rearranges files others) (hFile : file.Rearranges other)
    (hChecked : file.check files = .ok ()) : other.check others = .ok () := by
  have hImport : file.checkImport files = other.checkImport others := by
    funext node
    have hLookup := h.lookup node.space
    unfold ModelFile.checkImport
    generalize Table.find? files node.space = found,
      Table.find? others node.space = same at hLookup ⊢
    cases hLookup with
    | none => simp only [hFile.space]
    | some hImported => simp only [hImported.declared, hFile.space]
  have hDecorator : file.checkDecorator files = other.checkDecorator others := by
    funext d
    simp only [ModelFile.checkDecorator, h.resolve_eq hFile, hFile.fileName]
  have hAll : file.allDecorators.Perm other.allDecorators := by
    rw [ModelFile.allDecorators, ModelFile.allDecorators, hFile.decorators]
    exact (hFile.declarations.flatMap_right _).append_left _
  simp only [ModelFile.check, Outcome.bind_eq_ok, Outcome.exists_unit, Outcome.forM_eq_ok,
    hImport, hDecorator, hFile.imports] at hChecked ⊢
  exact ⟨hChecked.1, fun d hMem => hChecked.2 d (hAll.mem_iff.mpr hMem)⟩

/-! ## Declarations -/

theorem Rearranges.exists_file (h : Rearranges files others) (hMem : file ∈ Table.values files) :
    ∃ other, other ∈ Table.values others ∧ file.Rearranges other := by
  obtain ⟨entry, hEntry, rfl⟩ := List.mem_map.mp hMem
  obtain ⟨same, hSame, hFile⟩ := Named.exists_of_forall₂ h.symm hEntry
  exact ⟨same.2, List.mem_map_of_mem hSame, hFile.2.symm⟩

/-- The same is declared, by files that differ in the order of their declarations. -/
theorem Rearranges.exists_declaration (h : Rearranges files others) {d : Declaration}
    (hDeclared : (file, d) ∈ declarations files) :
    ∃ other, file.Rearranges other ∧ (other, d) ∈ declarations others := by
  obtain ⟨hFile, hMem⟩ := mem_declarations_iff.mp hDeclared
  obtain ⟨other, hOther, hSame⟩ := h.exists_file hFile
  exact ⟨other, hSame, mem_declarations_iff.mpr ⟨hOther, hSame.declarations.mem_iff.mp hMem⟩⟩

theorem Rearranges.declaredNames (h : Rearranges files others) {name : String}
    (hMem : name ∈ TypeIndex.declaredNames files) : name ∈ TypeIndex.declaredNames others := by
  obtain ⟨⟨file, d⟩, hDeclared, rfl⟩ := List.mem_map.mp hMem
  obtain ⟨other, _, hSame⟩ := h.exists_declaration hDeclared
  exact List.mem_map.mpr ⟨(other, d), hSame, rfl⟩

theorem Rearranges.classNames (h : Rearranges files others) {name : String}
    (hMem : name ∈ TypeIndex.classNames files) : name ∈ TypeIndex.classNames others := by
  obtain ⟨⟨file, d⟩, hDeclared, hName⟩ := List.mem_filterMap.mp hMem
  obtain ⟨other, _, hSame⟩ := h.exists_declaration hDeclared
  exact List.mem_filterMap.mpr ⟨(other, d), hSame, hName⟩

end ModelFiles

/-! ## Maps -/

theorem ModelFile.IsMade.nodup_fqns {file : ModelFile} (hMade : file.IsMade) :
    (file.declarations.map (·.fqn)).Nodup := by
  have hNames : file.declarations.map (·.fqn) =
      (file.declarations.map (·.name)).map (qualify file.space) := by
    rw [List.map_map]
    exact List.map_congr_left fun d hMem => by
      rw [Declaration.fqn, hMade.spaces d hMem, Function.comp_apply]
  rw [hNames]
  exact hMade.names.map fun _ _ => qualify_inj.mp

/-- The results that are collected come in the order of the results. -/
theorem BuildMode.eq_of_collect {α : Type} {mode : BuildMode} {results : List (Except Failure α)}
    {found : List α} (hFound : mode.collect results = .ok found) :
    found = results.filterMap Except.toOption := by
  induction results generalizing found with
  | nil =>
      cases hFound
      rfl
  | cons first rest ih =>
      simp only [collect, Outcome.bind_eq_ok] at hFound
      obtain ⟨kept, hKept, hFound⟩ := hFound
      cases first with
      | ok a =>
          rw [tolerate_ok] at hKept
          cases hKept
          simp only [Outcome.bind_eq_ok, Outcome.pure_eq_ok] at hFound
          obtain ⟨later, hLater, rfl⟩ := hFound
          rw [ih hLater]
          rfl
      | error failure =>
          cases mode with
          | strict => cases hKept
          | lenient =>
              cases hKept
              exact ih hFound

namespace TypeIndex

variable {files others : ModelFiles} {mode : BuildMode}

/-- What a declaration of a map is resolved to. -/
def mapOf (files : ModelFiles) (file : ModelFile) (d : Declaration) : Option ResolvedMap :=
  match d.body with
  | .mapBody key value => (file.resolveMap files d key value).toOption
  | _ => none

/-- The maps come in the order of the files and of their declarations. -/
theorem eq_of_resolveMaps {maps : List ResolvedMap} (hMaps : resolveMaps files mode = .ok maps) :
    maps = (Table.values files).flatMap fun file =>
      file.declarations.filterMap (mapOf files file) := by
  rw [BuildMode.eq_of_collect hMaps, List.filterMap_filterMap, ModelFiles.declarations,
    List.filterMap_flatMap]
  refine List.flatMap_congr fun file _ => ?_
  rw [List.filterMap_map]
  refine List.filterMap_congr fun d _ => ?_
  simp only [Function.comp_apply, mapOf]
  cases d.body <;> rfl

theorem fqn_of_mapOf {file : ModelFile} {d : Declaration} {m : ResolvedMap}
    (hMap : mapOf files file d = some m) : m.fqn = d.fqn := by
  unfold mapOf at hMap
  split at hMap
  · rename_i key value _
    cases hResolved : file.resolveMap files d key value with
    | ok found =>
        rw [hResolved] at hMap
        cases hMap
        exact (resolveMap_eq_ok hResolved).1
    | error failure =>
        rw [hResolved] at hMap
        cases hMap
  · cases hMap

/-- Two maps of one name come from different files, whose order stays. -/
theorem filter_maps_eq (hFiles : IsLoaded files) (h : ModelFiles.Rearranges files others)
    {mode : BuildMode} {maps otherMaps : List ResolvedMap}
    (hMaps : resolveMaps files mode = .ok maps)
    (hOtherMaps : resolveMaps others mode = .ok otherMaps) (name : String) :
    maps.filter (·.fqn = name) = otherMaps.filter (·.fqn = name) := by
  rw [eq_of_resolveMaps hMaps, eq_of_resolveMaps hOtherMaps, List.filter_flatMap,
    List.filter_flatMap, Table.values, Table.values, List.flatMap_map, List.flatMap_map]
  refine Named.flatMap_of_forall₂ h fun entry hMem other hEntry => ?_
  have hFile := hEntry.2
  have hSame : mapOf files entry.2 = mapOf others other.2 := by
    funext d
    simp only [mapOf, h.resolveMap_eq hFile]
  have hDistinct : ((entry.2.declarations.filterMap (mapOf files entry.2)).map (·.fqn)).Nodup :=
    (Named.map_filterMap_sublist (fun _ _ => fqn_of_mapOf) _).nodup (hFiles.isMade hMem).nodup_fqns
  have hPerm := hFile.declarations.filterMap (mapOf files entry.2)
  rw [Named.filter_eq_toList hDistinct, Named.find?_perm hDistinct hPerm,
    ← Named.filter_eq_toList ((hPerm.map _).nodup_iff.mp hDistinct), hSame]

/-- What is arranged depends on the items of each name alone. -/
theorem mem_arrange_congr {α : Type} {nameOf : α → String} {names otherNames : List String}
    {items otherItems : List α} (hNames : ∀ name, name ∈ names ↔ name ∈ otherNames)
    (hItems : ∀ name, items.filter (nameOf · = name) = otherItems.filter (nameOf · = name))
    {a : α} : a ∈ arrange nameOf names items ↔ a ∈ arrange nameOf otherNames otherItems := by
  have hFind : items.reverse.find? (nameOf · = nameOf a) =
      otherItems.reverse.find? (nameOf · = nameOf a) := by
    rw [← List.head?_filter, ← List.head?_filter, List.filter_reverse, List.filter_reverse,
      hItems]
  rw [mem_arrange, mem_arrange, hNames, hFind]

/-! ## Indexes -/

/-- Two indexes with the same entries, which may come in another order. No two classes and no two
maps of them have one name. -/
structure SameEntries (index other : TypeIndex) : Prop where
  classes : index.classes.Perm other.classes
  maps : index.maps.Perm other.maps
  distinctClasses : (index.classes.map (·.fqn)).Nodup
  distinctMaps : (index.maps.map (·.fqn)).Nodup

namespace SameEntries

variable {index other : TypeIndex} (h : SameEntries index other)
include h

theorem symm : SameEntries other index where
  classes := h.classes.symm
  maps := h.maps.symm
  distinctClasses := (h.classes.map _).nodup_iff.mp h.distinctClasses
  distinctMaps := (h.maps.map _).nodup_iff.mp h.distinctMaps

theorem class?_eq (fqn : String) : index.class? fqn = other.class? fqn :=
  Named.find?_perm h.distinctClasses h.classes fqn

theorem map?_eq (fqn : String) : index.map? fqn = other.map? fqn :=
  Named.find?_perm h.distinctMaps h.maps fqn

/-- A class has the same direct subclasses. -/
theorem subclasses (fqn : String) : (index.subclasses fqn).Perm (other.subclasses fqn) := by
  rw [TypeIndex.subclasses, TypeIndex.subclasses, h.class?_eq]
  split
  · exact h.classes.filter _
  · exact .refl _

theorem familyWithin (depth : Nat) (c : ResolvedClass) :
    (index.familyWithin depth c).Perm (other.familyWithin depth c) := by
  induction depth generalizing c with
  | zero => exact .refl _
  | succ depth ih =>
      refine .cons c ?_
      exact ((h.subclasses c.fqn).flatMap_right _).trans (List.Perm.flatMap_left _ fun a _ => ih a)

/-- The same classes can stand where a class is declared. -/
theorem assignableClasses (fqn : String) :
    (index.assignableClasses fqn).Perm (other.assignableClasses fqn) := by
  rw [TypeIndex.assignableClasses, TypeIndex.assignableClasses, h.class?_eq, h.classes.length_eq]
  split
  · exact h.familyWithin _ _
  · exact .refl _

theorem pointsToIdentified_iff {type : ResolvedType} :
    index.PointsToIdentified type ↔ other.PointsToIdentified type := by
  simp only [PointsToIdentified, h.class?_eq]

/-- The same declarations are at fault. -/
theorem pointsAstray_iff {name : String} : index.PointsAstray name ↔ other.PointsAstray name := by
  simp only [PointsAstray, h.classes.mem_iff, h.maps.mem_iff, h.pointsToIdentified_iff]

theorem without {names otherNames : List String}
    (hNames : ∀ name, name ∈ names ↔ name ∈ otherNames) :
    SameEntries (index.without names) (other.without otherNames) := by
  have hSame (name : String) : names.contains name = otherNames.contains name := by
    rw [Bool.eq_iff_iff, List.contains_iff_mem, List.contains_iff_mem, hNames]
  simp only [TypeIndex.without, hSame]
  exact ⟨h.classes.filter _, h.maps.filter _,
    (List.filter_sublist.map _).nodup h.distinctClasses,
    (List.filter_sublist.map _).nodup h.distinctMaps⟩

/-- The check of the relationships comes to the same. -/
theorem checkPointers {next : TypeIndex} (hNext : checkPointers mode index = .ok next) :
    ∃ otherNext, TypeIndex.checkPointers mode other = .ok otherNext ∧
      SameEntries next otherNext := by
  have hNames (name : String) : name ∈ index.pointerFaults.map (·.1) ↔
      name ∈ other.pointerFaults.map (·.1) := by
    rw [mem_pointerFaults, mem_pointerFaults, h.pointsAstray_iff]
  cases mode with
  | strict =>
      obtain ⟨hNone, rfl⟩ := checkPointers_strict hNext
      have hOther : other.pointerFaults = [] := pointerFaults_eq_nil fun name hAstray => by
        have hFault := (hNames name).mpr (mem_pointerFaults.mpr hAstray)
        rw [hNone] at hFault
        cases hFault
      exact ⟨other, checkPointers_of_no_faults .strict hOther, h⟩
  | lenient =>
      rw [checkPointers_lenient] at hNext
      cases hNext
      exact ⟨_, checkPointers_lenient other, h.without hNames⟩

end SameEntries

/-! ## Builds -/

theorem exists_check_rearranged (h : ModelFiles.Rearranges files others) {checked : List Unit}
    (hChecked : mode.collect ((Table.values files).map fun file => file.check files) =
      .ok checked) :
    ∃ found, mode.collect ((Table.values others).map fun file => file.check others) =
      .ok found := by
  cases mode with
  | lenient => exact BuildMode.collect_lenient _
  | strict =>
      refine BuildMode.exists_collect_strict_iff.mpr fun result hMem => ?_
      obtain ⟨other, hOther, rfl⟩ := List.mem_map.mp hMem
      obtain ⟨file, hFile, hSame⟩ := h.symm.exists_file hOther
      obtain ⟨⟨⟩, hOk⟩ := BuildMode.exists_collect_strict_iff.mp ⟨checked, hChecked⟩ _
        (List.mem_map.mpr ⟨file, hFile, rfl⟩)
      exact ⟨(), h.check hSame.symm hOk⟩

theorem exists_resolveClasses_rearranged (h : ModelFiles.Rearranges files others)
    {classes : List ResolvedClass} (hClasses : resolveClasses files mode = .ok classes) :
    ∃ found, resolveClasses others mode = .ok found := by
  cases mode with
  | lenient => exact resolveEach_lenient _ _ _
  | strict =>
      refine exists_resolveEach_strict ModelFiles.agrees_nil fun name hMem => ?_
      obtain ⟨c, hResolves⟩ := resolves_of_resolveEach ModelFiles.agrees_nil hClasses name
        (h.symm.classNames hMem)
      exact ⟨c, hResolves.rearranged h⟩

theorem exists_resolveMaps_rearranged (h : ModelFiles.Rearranges files others)
    {maps : List ResolvedMap} (hMaps : resolveMaps files mode = .ok maps) :
    ∃ found, resolveMaps others mode = .ok found := by
  cases mode with
  | lenient => exact BuildMode.collect_lenient _
  | strict =>
      refine BuildMode.exists_collect_strict_iff.mpr fun result hMem => ?_
      obtain ⟨⟨other, d⟩, hDeclared, hResult⟩ := List.mem_filterMap.mp hMem
      simp only at hResult
      split at hResult
      · rename_i key value hBody
        cases hResult
        obtain ⟨file, hSame, hFile⟩ := h.symm.exists_declaration hDeclared
        rw [← h.resolveMap_eq hSame.symm]
        exact BuildMode.exists_collect_strict_iff.mp ⟨maps, hMaps⟩ _
          (List.mem_filterMap.mpr ⟨(file, d), hFile, by simp only [hBody]⟩)
      · cases hResult

/-- The index of rearranged files can be built as well, and it has the same entries. -/
theorem build_rearranged (hFiles : IsLoaded files) (hOthers : IsLoaded others)
    (h : ModelFiles.Rearranges files others) {index : TypeIndex}
    (hBuild : build files mode = .ok index) :
    ∃ other, build others mode = .ok other ∧ SameEntries index other := by
  obtain ⟨_, classes, maps, hChecked, hClasses, hMaps, hPointers⟩ := build_eq_ok.mp hBuild
  obtain ⟨_, hOtherChecked⟩ := exists_check_rearranged h hChecked
  obtain ⟨otherClasses, hOtherClasses⟩ := exists_resolveClasses_rearranged h hClasses
  obtain ⟨otherMaps, hOtherMaps⟩ := exists_resolveMaps_rearranged h hMaps
  have hWhole := isWhole_of_resolved hFiles hClasses hMaps
  have hOtherWhole := isWhole_of_resolved hOthers hOtherClasses hOtherMaps
  have hSame : SameEntries
      { classes := arrange (·.fqn) (declaredNames files) classes
        maps := arrange (·.fqn) (declaredNames files) maps }
      { classes := arrange (·.fqn) (declaredNames others) otherClasses
        maps := arrange (·.fqn) (declaredNames others) otherMaps } := by
    refine ⟨?_, ?_, nodup_arrange, nodup_arrange⟩
    · refine (List.perm_ext_iff_of_nodup (.of_map _ nodup_arrange) (.of_map _ nodup_arrange)).mpr
        fun c => ?_
      exact (hWhole.classes c).trans (h.resolves_iff.trans (hOtherWhole.classes c).symm)
    · refine (List.perm_ext_iff_of_nodup (.of_map _ nodup_arrange) (.of_map _ nodup_arrange)).mpr
        fun m => ?_
      exact mem_arrange_congr (fun _ => ⟨h.declaredNames, h.symm.declaredNames⟩)
        (filter_maps_eq hFiles h hMaps hOtherMaps)
  obtain ⟨other, hOther, hEntries⟩ := hSame.checkPointers hPointers
  exact ⟨other, build_eq_ok.mpr ⟨_, otherClasses, otherMaps, hOtherChecked, hOtherClasses,
    hOtherMaps, hOther⟩, hEntries⟩

end TypeIndex

end DomainModels
