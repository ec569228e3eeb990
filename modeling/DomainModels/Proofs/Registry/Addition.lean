import DomainModels.Proofs.Index.Family
import DomainModels.Proofs.Registry.ClosedWorld
import DomainModels.Proofs.Registry.Maps
import Mathlib.Data.List.Flatten

/-!
Adding model files to a strictly indexed registry.

The files that have been there are checked, so that no reference of theirs is captured by what
joins. Hence the new index has the old classes and maps as they were, and the old classes in their
order, although the new ones may come between them.
-/

namespace DomainModels

open ModelFiles (IsLoaded Resolves HasSimpleNames Within Carries)

/-! ## The order of the classes -/

namespace ModelFiles

variable {files : ModelFiles}

/-- No declaration stands twice. -/
theorem IsLoaded.nodup_declarations (hFiles : IsLoaded files) : (declarations files).Nodup := by
  refine List.nodup_flatMap.mpr ⟨fun file hMem => ?_, ?_⟩
  · obtain ⟨entry, hEntry, rfl⟩ := List.mem_map.mp hMem
    exact (List.Nodup.of_map _ (hFiles.isMade hEntry).names).map fun _ _ hSame =>
      (Prod.mk.inj hSame).2
  · refine List.pairwise_map.mpr (hFiles.sorted.imp_of_mem fun hA hB hLess => ?_)
    -- Files of different namespaces are different.
    intro found hFirst hSecond
    obtain ⟨_, _, rfl⟩ := List.mem_map.mp hFirst
    obtain ⟨_, _, hSame⟩ := List.mem_map.mp hSecond
    rw [hFiles.keyed _ hA, hFiles.keyed _ hB, (Prod.mk.inj hSame).1] at hLess
    exact String.lt_irrefl _ hLess

/-- The declarations whose names are simple, in the order of the files. -/
def simplyNamed (files : ModelFiles) : List (ModelFile × Declaration) :=
  (declarations files).filter fun found => IsSimpleName found.2.name

/-- No two declarations with simple names have one qualified name. -/
theorem IsLoaded.nodup_simplyNamed (hFiles : IsLoaded files) :
    ((simplyNamed files).map fun found => found.2.fqn).Nodup := by
  have hFound {found : ModelFile × Declaration} (hMem : found ∈ simplyNamed files) :
      find? files found.2.fqn = some found := by
    obtain ⟨hDeclared, hSimple⟩ := List.mem_filter.mp hMem
    exact hFiles.find?_eq_some_iff.mpr ⟨hDeclared, of_decide_eq_true hSimple, rfl⟩
  refine (List.nodup_map_iff_inj_on (hFiles.nodup_declarations.filter _)).mpr ?_
  intro found hMem other hOther hSame
  have hAnswer := hFound hMem
  rw [hSame, hFound hOther] at hAnswer
  exact (Option.some.inj hAnswer).symm

/-- Where names are simple, no two declarations have one name. -/
theorem IsLoaded.nodup_declaredNames (hFiles : IsLoaded files) (hNames : HasSimpleNames files) :
    (TypeIndex.declaredNames files).Nodup := by
  have hAll : simplyNamed files = declarations files :=
    List.filter_eq_self.mpr fun found hMem => decide_eq_true (hNames found hMem)
  have hNodup := hFiles.nodup_simplyNamed
  rwa [hAll] at hNodup

end ModelFiles

namespace TypeIndex

variable {files : ModelFiles} {index : TypeIndex}

theorem isDistinct_of_build {mode : BuildMode} (hBuild : build files mode = .ok index) :
    index.IsDistinct :=
  nodup_classes hBuild

/-- A strict index has its classes in the order of their declarations. -/
theorem classes_eq (hFiles : IsLoaded files) (hNames : HasSimpleNames files)
    (hBuild : build files .strict = .ok index) :
    index.classes = (declaredNames files).filterMap index.class? := by
  obtain ⟨_, classes, maps, _, hClasses, _, hPointers⟩ := build_eq_ok.mp hBuild
  have hMem : ∀ c, c ∈ classes ↔ ∃ name ∈ classNames files, Resolves files name c :=
    fun c => mem_of_resolveEach ModelFiles.agrees_nil hClasses
  obtain ⟨_, hIndex⟩ := checkPointers_strict hPointers
  rw [show index.classes = arrange (·.fqn) (declaredNames files) classes by rw [hIndex], arrange,
    lastOccurrences_of_nodup (hFiles.nodup_declaredNames hNames)]
  refine List.filterMap_congr fun name _ => Option.ext fun c => ?_
  rw [class?_eq_some hFiles hBuild]
  constructor
  · intro hFound
    obtain ⟨hReverse, rfl⟩ := Named.mem_of_find? hFound
    obtain ⟨name, _, hResolves⟩ := (hMem c).mp (List.mem_reverse.mp hReverse)
    rw [hFiles.fqn_of_resolves hResolves]
    exact hResolves
  · intro hResolves
    obtain ⟨_, _, _, _, hFound, _⟩ := hResolves.exists_declaration
    have hClass := (hMem c).mpr ⟨name, hFiles.mem_classNames hFound, hResolves⟩
    obtain ⟨other, hOther⟩ : ∃ other, classes.reverse.find? (·.fqn = name) = some other :=
      Option.isSome_iff_exists.mp (List.find?_isSome.mpr ⟨c, List.mem_reverse.mpr hClass,
        by simpa using hFiles.fqn_of_resolves hResolves⟩)
    obtain ⟨hReverse, hName⟩ := Named.mem_of_find? hOther
    obtain ⟨_, _, hOtherResolves⟩ := (hMem other).mp (List.mem_reverse.mp hReverse)
    rw [← hFiles.fqn_of_resolves hOtherResolves, hName] at hOtherResolves
    rw [hOther, hOtherResolves.unique hResolves]

end TypeIndex

/-! ## Growing sets of files -/

/-- Strictly indexed files that join others, and the index of all of them. -/
structure Grows (r next : Registry) : Prop where
  before : r.IsStrict
  after : next.IsStrict
  names : HasSimpleNames next.files
  joined : r.files.Sublist next.files

namespace Grows

variable {r next : Registry} (hGrows : Grows r next)
include hGrows

theorem within : Within r.files next.files := fun _ _ hFound =>
  Table.find?_of_mem hGrows.after.files.sorted (hGrows.joined.subset (Table.mem_of_find? hFound))

theorem declarations_sublist :
    (ModelFiles.declarations r.files).Sublist (ModelFiles.declarations next.files) :=
  (hGrows.joined.map _).flatMap _

theorem hasSimpleNames : HasSimpleNames r.files := fun found hMem =>
  hGrows.names found (hGrows.declarations_sublist.subset hMem)

/-- Every declaration that has been there carries over. -/
theorem carries (fqn : String) : Carries r.files next.files fqn := by
  intro file d hFound
  obtain ⟨hFile, _⟩ := hGrows.before.files.of_findDeclaration hFound
  refine ⟨hGrows.within.find? hFound, fun type _ => ?_⟩
  exact hGrows.within.keeps hGrows.before.files hGrows.hasSimpleNames hFile
    (hGrows.before.files.hasWildcards hGrows.before.index hFile) type

/-- So every class is resolved as it was. -/
theorem class?_of_before {fqn : String} {c : ResolvedClass}
    (hFound : r.index.class? fqn = some c) : next.index.class? fqn = some c := by
  rw [TypeIndex.class?_eq_some hGrows.before.files hGrows.before.index] at hFound
  rw [TypeIndex.class?_eq_some hGrows.after.files hGrows.after.index]
  exact hFound.carry hGrows.before.files hGrows.after.files (P := fun _ => True)
    (fun name _ => hGrows.carries name) (fun _ _ _ _ _ => trivial) trivial

/-- And so is every map. -/
theorem map?_of_before {fqn : String} {m : ResolvedMap} (hFound : r.index.map? fqn = some m) :
    next.index.map? fqn = some m := by
  rw [TypeIndex.map?_eq_some_iff hGrows.before.files hGrows.hasSimpleNames hGrows.before.index]
    at hFound
  rw [TypeIndex.map?_eq_some_iff hGrows.after.files hGrows.names hGrows.after.index]
  exact ⟨hFound.1.carry hGrows.before.files hGrows.after.files hGrows.hasSimpleNames
    (hGrows.carries m.fqn), hFound.2⟩

/-- No name that has been declared comes to stand for a class only now. -/
theorem class?_eq {fqn : String} (hDeclared : fqn ∈ TypeIndex.declaredNames r.files) :
    next.index.class? fqn = r.index.class? fqn := by
  refine Option.ext fun c => ⟨fun hFound => ?_, hGrows.class?_of_before⟩
  rw [TypeIndex.class?_eq_some hGrows.after.files hGrows.after.index] at hFound
  obtain ⟨_, _, body, _, hClassFound, _⟩ := hFound.exists_declaration
  obtain ⟨hFind, hClass⟩ := ModelFiles.findClass_eq_ok.mp hClassFound
  obtain ⟨⟨file, d⟩, hMem, rfl⟩ := List.mem_map.mp hDeclared
  have hFindBefore := hGrows.before.files.find?_fqn hGrows.hasSimpleNames hMem
  cases (hGrows.within.find? hFindBefore).symm.trans hFind
  obtain ⟨other, hOther⟩ := TypeIndex.exists_resolves hGrows.before.files hGrows.before.index
    (ModelFiles.findClass_eq_ok.mpr ⟨hFindBefore, hClass⟩)
  have hOther := TypeIndex.class?_of_resolves hGrows.before.files hGrows.before.index hOther
  have hAfter := hGrows.class?_of_before hOther
  rw [TypeIndex.class?_eq_some hGrows.after.files hGrows.after.index] at hAfter
  rw [hFound.unique hAfter]
  exact hOther

/-- The index is a part of the new one. -/
theorem isPartOf : r.index.IsPartOf next.index where
  order := by
    rw [TypeIndex.classes_eq hGrows.before.files hGrows.hasSimpleNames hGrows.before.index,
      TypeIndex.classes_eq hGrows.after.files hGrows.names hGrows.after.index,
      ← List.filterMap_congr fun name hMem => hGrows.class?_eq hMem]
    exact (hGrows.declarations_sublist.map _).filterMap _
  superTypes := (TypeIndex.isClosed_of_strict hGrows.before.files hGrows.before.index).superTypes

end Grows

/-! ## Additions -/

namespace Registry

variable {r next : Registry}

/-- One model file joins a registry, or several ones together, and all of them are checked. -/
inductive Adds (r next : Registry) : Prop where
  | one (input : ModelInput) (file : ModelFile) (hAdded : r.addModel input = .ok (next, file))
  | many (inputs : List ModelInput) (files : List ModelFile)
      (hAdded : r.addModels inputs false = .ok (next, files))

theorem sublist_addFiles {files later : ModelFiles} {inputs : List ModelInput}
    {added : List ModelFile} (hAdded : r.addFiles files inputs = .ok (later, added)) :
    files.Sublist later := by
  induction inputs generalizing files later added with
  | nil =>
      simp only [addFiles, Except.ok.injEq, Prod.mk.injEq] at hAdded
      exact hAdded.1 ▸ List.Sublist.refl _
  | cons input rest ih =>
      obtain ⟨file, _, _, _, hNew, hLater, _⟩ := addFiles_cons.mp hAdded
      exact (Table.sublist_put hNew file).trans (ih hLater)

/-- What is added joins the files that are there. -/
theorem Adds.grows (hStrict : r.IsStrict) (hAdds : r.Adds next) (hNames : HasSimpleNames next.files) :
    Grows r next := by
  cases hAdds with
  | one input file hAdded =>
      obtain ⟨hFiles, hBuild⟩ := addModel_eq_ok hStrict.files hAdded
      refine ⟨hStrict, ⟨hFiles, hBuild⟩, hNames, ?_⟩
      simp only [addModel, Outcome.bind_eq_ok, Outcome.pure_eq_ok] at hAdded
      obtain ⟨_, _, _, hNew, _, hIndex, hEq⟩ := hAdded
      cases hEq
      rw [(withFiles_eq_ok hIndex).1]
      exact Table.sublist_put (checkNew_eq_ok.mp hNew).2 file
  | many inputs files hAdded =>
      obtain ⟨hFiles, hBuild⟩ := addModels_eq_ok hStrict.files hAdded
      refine ⟨hStrict, ⟨hFiles, hBuild⟩, hNames, ?_⟩
      simp only [addModels, Outcome.bind_eq_ok, Outcome.pure_eq_ok] at hAdded
      obtain ⟨⟨later, _⟩, hLater, _, hIndex, hEq⟩ := hAdded
      cases hEq
      rw [(withFiles_eq_ok hIndex).1]
      exact sublist_addFiles hLater

/-- Adding is a conservative extension of a strictly indexed registry. Every class and every map is
indexed as it was before, old classes can stand for each other as before, and the classes that can
stand for an old one are, apart from new ones, those that could do so before, in their order. -/
theorem conservative_of_adds {changes : List Change} {next : Registry}
    (hValid : (Session.initial.run changes).registry.validate = .ok ())
    (hAdds : (Session.initial.run changes).registry.Adds next)
    (hNames : HasSimpleNames next.files) :
    let old := (Session.initial.run changes).registry.index
    (∀ fqn c, old.class? fqn = some c → next.index.class? fqn = some c) ∧
    (∀ fqn m, old.map? fqn = some m → next.index.map? fqn = some m) ∧
    (∀ a ∈ old.classes, ∀ b ∈ old.classes,
      next.index.isAssignable a.fqn b.fqn = old.isAssignable a.fqn b.fqn) ∧
    ∀ c ∈ old.classes,
      (next.index.assignableClasses c.fqn).filter (fun m => (old.class? m.fqn).isSome) =
        old.assignableClasses c.fqn := by
  intro old
  have hGrows := hAdds.grows (isStrict_of_validate hValid) hNames
  have hDistinct := TypeIndex.isDistinct_of_build hGrows.after.index
  have hAcyclic := TypeIndex.acyclic_of_build hGrows.after.files hGrows.after.index
  have hKnown : ∀ c ∈ old.classes, (old.class? c.fqn).isSome = true := fun c hMem => by
    rw [TypeIndex.class?_of_mem hGrows.before.index hMem]
    rfl
  refine ⟨fun _ _ => hGrows.class?_of_before, fun _ _ => hGrows.map?_of_before, ?_, ?_⟩
  · exact fun a hMem b _ => hGrows.isPartOf.isAssignable_eq hDistinct hAcyclic (hKnown a hMem)
  · exact fun c hMem => hGrows.isPartOf.filter_assignableClasses hDistinct hAcyclic (hKnown c hMem)

end Registry

/-! ## A model of freight

The model of parcels is loaded first. Then another one joins it, whose class extends tracked parcels.
-/

namespace Post

/-- The registry into which the model has been loaded. -/
def registry : Registry := ⟨files, index, []⟩

theorem run_model : (Session.initial.run [.addModel ⟨model, none⟩]).registry = registry := by
  have hMade : Session.initial.registry.makeFile ⟨model, none⟩ = .ok file := rfl
  exact Session.run_addModel (Registry.addModel_of_build hMade rfl build_files)

end Post

namespace Rail

def space : String := "rail@1.0.0"

/-- The syntax tree of the model. -/
def model : Metamodel.Model :=
  { Metamodel.Model.empty space with
    imports := [⟨Post.space, .all, none⟩]
    declarations :=
      [⟨"Freight", .classBody .concept false (some ⟨"Tracked", none⟩) none
         [⟨"wagon", .typed (.primitive (.string none none none)) false true, [], none⟩], [],
         none⟩] }

def wagonProperty : Property := ⟨"wagon", .value (.string none none), false, true, [], none⟩

/-- The model file. -/
def file : ModelFile where
  space := space
  version := ⟨"rail", some ⟨1, 0, 0, "", ""⟩⟩
  fileName := none
  checksum := ModelFile.checksumOf model
  model := model
  declarations :=
    [⟨"Freight", space,
       .classBody ⟨.concept, false, some ⟨"Tracked", none⟩, none, [wagonProperty]⟩, [], none⟩]
  explicitImports := []
  wildcardImports := [Post.space]
  decorators := []

def wagon : ResolvedProperty := ⟨wagonProperty, "rail@1.0.0.Freight", .value (.string none none)⟩

/-- The class of freight, which is identified as all tracked parcels are. -/
def freight : ResolvedClass :=
  { ResolvedClass.concept space "Freight" none (some identifierField)
      (wagon :: Post.tracked.properties) with
    superType := some Post.tracked.fqn
    identifierOwner := some Post.tracked.fqn }

/-- The registry into which both models have been loaded. -/
def registry : Registry where
  files := Post.files ++ [(space, file)]
  index := ⟨Post.index.classes ++ [freight], []⟩
  factories := []

theorem build_files : TypeIndex.build registry.files .strict = .ok registry.index := by
  have hEach : TypeIndex.resolveEach registry.files .strict
      [Post.parcel.fqn, Post.tracked.fqn, freight.fqn] Root.findings =
      .ok [Post.parcel, Post.tracked, freight] := by
    refine Root.resolveEach_cons_sub rfl rfl rfl rfl rfl ?_
    refine Root.resolveEach_cons_sub rfl rfl rfl rfl rfl ?_
    exact Root.resolveEach_cons_sub rfl rfl rfl rfl rfl rfl
  exact (Root.build_of_rest rfl rfl rfl hEach rfl rfl rfl).trans
    (TypeIndex.checkPointers_of_no_pointers .strict (by decide) (by decide))

theorem addModel_model : Post.registry.addModel ⟨model, none⟩ = .ok (registry, file) := by
  have hMade : Post.registry.makeFile ⟨model, none⟩ = .ok file := rfl
  exact Registry.addModel_of_build hMade rfl build_files

theorem hasSimpleNames_registry : HasSimpleNames registry.files := by decide +kernel

end Rail

namespace Registry

/-- Freight can stand for parcels, after all that could do so before. -/
theorem conservative_freight : Post.registry.validate = .ok () ∧
    Post.registry.Adds Rail.registry ∧ HasSimpleNames Rail.registry.files ∧
    Rail.registry.index.class? Post.tracked.fqn = some Post.tracked ∧
    (Rail.registry.index.assignableClasses Post.parcel.fqn).map (·.name) =
      ["Parcel", "Tracked", "Freight"] ∧
    (Rail.registry.index.assignableClasses Post.parcel.fqn).filter
        (fun m => (Post.index.class? m.fqn).isSome) =
      Post.index.assignableClasses Post.parcel.fqn := by
  have hValid : Post.registry.validate = .ok () := validate_of_build Post.build_files
  have hAdds : Post.registry.Adds Rail.registry := .one _ _ Rail.addModel_model
  have hConservative := conservative_of_adds (Post.run_model.symm ▸ hValid)
    (Post.run_model.symm ▸ hAdds) Rail.hasSimpleNames_registry
  rw [Post.run_model] at hConservative
  obtain ⟨hClasses, _, _, hBelow⟩ := hConservative
  have hParcel : Post.parcel ∈ Post.registry.index.classes := by simp [Post.registry, Post.index]
  exact ⟨hValid, hAdds, Rail.hasSimpleNames_registry, hClasses _ _ rfl, rfl, hBelow _ hParcel⟩

end Registry

end DomainModels
