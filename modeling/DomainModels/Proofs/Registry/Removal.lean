import DomainModels.Proofs.Registry.Maps

/-!
Deleting a namespace of a strictly indexed registry.

What refers to the namespace is no longer resolved, and whatever does not refer to it is resolved as
before. The exception are references by a name that is imported with a whole namespace: they may be
found elsewhere once the namespace is gone, so that what has been resolved with it is resolved to
something else.
-/

namespace DomainModels

open ModelFiles (IsLoaded Resolves HasSimpleNames Carries DeclaredIn FindsSubstitute)
open Relation (ReflTransGen)
open TypeIndex (ResolvesMap)

namespace Registry

variable {r : Registry} {space : String}

/-! ## Entries that mention a namespace -/

/-- A class extends a declaration of a namespace, or one of its properties refers to such a
declaration. -/
def ClassMentions (r : Registry) (space : String) (c : ResolvedClass) : Prop :=
  (∃ super ∈ r.index.superChain c.fqn, DeclaredIn r.files space super) ∨
    ∃ p ∈ c.properties, ∃ target, p.type.reference? = some target ∧
      DeclaredIn r.files space target

/-- The keys or the values of a map refer to a declaration of a namespace. -/
def MapMentions (r : Registry) (space : String) (m : ResolvedMap) : Prop :=
  ∃ target, (m.key.type.reference? = some target ∨ m.value.type.reference? = some target) ∧
    DeclaredIn r.files space target

/-- Something takes the place of a namespace in the declaration of a class or in those of its super
types. -/
def IsCaptured (r : Registry) (space fqn : String) : Prop :=
  ∃ super ∈ r.index.superChain fqn, FindsSubstitute r.files space super

/-- Where pointers are declared, something takes the place of a namespace in the declaration of the
class that is pointed to, or in those of its super types. -/
def HasCapturedTarget (r : Registry) (space : String) (type : ResolvedType) : Prop :=
  ∃ target, type = .relationship target ∧ r.IsCaptured space target

/-! ## References of strictly indexed declarations -/

namespace IsStrict

variable (hStrict : r.IsStrict) (hNames : HasSimpleNames r.files)
include hStrict

theorem class?_iff {fqn : String} {c : ResolvedClass} :
    r.index.class? fqn = some c ↔ Resolves r.files fqn c :=
  TypeIndex.class?_eq_some hStrict.files hStrict.index

theorem mem_superChain {sub super : String} :
    super ∈ r.index.superChain sub ↔ ReflTransGen r.index.Inherits sub super :=
  (TypeIndex.acyclic_of_build hStrict.files hStrict.index).mem_superChain

theorem resolvesMap_of_mem {m : ResolvedMap} (hMem : m ∈ r.index.maps) : ResolvesMap r.files m := by
  obtain ⟨_, hWhole, hPointers⟩ := TypeIndex.exists_isWhole hStrict.files hStrict.index
  obtain ⟨_, rfl⟩ := TypeIndex.checkPointers_strict hPointers
  exact hWhole.maps m hMem

/-- What the resolution of a class needs is its super type. -/
theorem inherits_of_needs {sub super : String} (hNeeds : ModelFiles.Needs r.files sub super) :
    r.index.Inherits sub super := by
  obtain ⟨_, _, _, hFound, _⟩ := id hNeeds
  obtain ⟨c, hResolves⟩ := TypeIndex.exists_resolves hStrict.files hStrict.index hFound
  rw [TypeIndex.Inherits, TypeIndex.superType?, hStrict.class?_iff.mpr hResolves]
  exact hResolves.superType_of_needs hStrict.files hNeeds

include hNames

/-- Every reference of a declaration is resolved. -/
theorem exists_resolve {fqn : String} {file : ModelFile} {d : Declaration}
    (hFound : ModelFiles.find? r.files fqn = some (file, d)) {type : Metamodel.TypeName}
    (hMem : type ∈ d.body.references) : ∃ target, file.resolve r.files type = .ok target := by
  cases hBody : d.body with
  | classBody body =>
      obtain ⟨c, hResolves⟩ := TypeIndex.exists_resolves hStrict.files hStrict.index
        (ModelFiles.findClass_eq_ok.mpr ⟨hFound, Declaration.class?_eq_some.mpr hBody⟩)
      obtain ⟨target, hTarget, _⟩ := hResolves.exists_resolve hStrict.files hFound hMem
      exact ⟨target, hTarget⟩
  | mapBody key value =>
      obtain ⟨m, hM⟩ := TypeIndex.exists_map?_of_mem hStrict.index
        (hStrict.files.mem_of_find? hFound) hBody
      obtain ⟨hResolves, hName⟩ :=
        (TypeIndex.map?_eq_some_iff hStrict.files hNames hStrict.index).mp hM
      obtain ⟨_, _, _, _, hSame, hMapBody, hResolved⟩ :=
        hResolves.exists_find? hStrict.files hNames
      rw [hName, (hStrict.files.of_findDeclaration hFound).2.2.2] at hSame
      cases hFound.symm.trans hSame
      obtain ⟨target, hTarget, _⟩ :=
        ModelFiles.exists_resolve_of_resolveMap hMapBody hResolved hMem
      exact ⟨target, hTarget⟩
  | scalarBody type | enumBody values =>
      rw [hBody] at hMem
      cases hMem

end IsStrict

/-! ## The files that stay -/

/-- A namespace that may leave a strictly indexed registry. -/
structure MayLeave (r : Registry) (space : String) : Prop where
  strict : r.IsStrict
  names : HasSimpleNames r.files
  user : space ≠ rootNamespace

/-- The files of the other namespaces. -/
def staying (r : Registry) (space : String) : ModelFiles := Table.erase space r.files

namespace MayLeave

variable (hLeaves : MayLeave r space)
include hLeaves

theorem isLoaded : IsLoaded (r.staying space) := hLeaves.strict.files.erase hLeaves.user

theorem hasSimpleNames : HasSimpleNames (r.staying space) :=
  hLeaves.strict.files.hasSimpleNames_erase hLeaves.names hLeaves.user

/-- A class that is not captured is resolved as before, if at all. -/
theorem resolves_before {fqn : String} {c : ResolvedClass} (hNone : ¬ r.IsCaptured space fqn)
    (hResolves : Resolves (r.staying space) fqn c) : Resolves r.files fqn c := by
  refine hResolves.carry hLeaves.isLoaded hLeaves.strict.files
    (P := fun name => name ∈ r.index.superChain fqn) (fun name hIn => ?_)
    (fun name super hIn _ hNeeds => ?_) (hLeaves.strict.mem_superChain.mpr .refl)
  · exact hLeaves.strict.files.carries_of_erase hLeaves.names (fun h => hNone ⟨name, hIn, h⟩)
      fun _ _ hFound _ hMem => hLeaves.strict.exists_resolve hLeaves.names hFound hMem
  · rw [hLeaves.strict.mem_superChain] at hIn ⊢
    exact hIn.tail (hLeaves.strict.inherits_of_needs hNeeds)

/-- What can be reached from a class that is still resolved, is still resolved. -/
theorem exists_resolves_of_reach {fqn super : String} {c : ResolvedClass}
    (hNone : ¬ r.IsCaptured space fqn) (hResolves : Resolves (r.staying space) fqn c)
    (hReach : ReflTransGen r.index.Inherits fqn super) :
    ∃ parent, Resolves (r.staying space) super parent := by
  induction hReach with
  | refl => exact ⟨c, hResolves⟩
  | @tail name super hReach hStep ih =>
      obtain ⟨d, hD⟩ := ih
      have hNotCaptured : ¬ r.IsCaptured space name := by
        rintro ⟨other, hIn, hFinds⟩
        rw [hLeaves.strict.mem_superChain] at hIn
        exact hNone ⟨other, hLeaves.strict.mem_superChain.mpr (hReach.trans hIn), hFinds⟩
      have hFound := hLeaves.strict.class?_iff.mpr (hLeaves.resolves_before hNotCaptured hD)
      rw [TypeIndex.Inherits, TypeIndex.superType?, hFound] at hStep
      exact hD.needs (hD.needs_superType hLeaves.isLoaded hStep)

/-- A class that is still resolved and is not captured mentions nothing that has left. -/
theorem not_classMentions {fqn : String} {c : ResolvedClass} (hNone : ¬ r.IsCaptured space fqn)
    (hResolves : Resolves (r.staying space) fqn c) : ¬ r.ClassMentions space c := by
  rintro (⟨super, hIn, hDeclared⟩ | ⟨p, hMem, target, hReference, hDeclared⟩)
  · rw [hLeaves.isLoaded.fqn_of_resolves hResolves, hLeaves.strict.mem_superChain] at hIn
    obtain ⟨parent, hParent⟩ := hLeaves.exists_resolves_of_reach hNone hResolves hIn
    obtain ⟨_, _, _, _, hFound, _⟩ := hParent.exists_declaration
    refine hLeaves.strict.files.not_declaredIn ?_ hDeclared
    exact Option.isSome_iff_exists.mpr ⟨_, (ModelFiles.findClass_eq_ok.mp hFound).1⟩
  · exact hLeaves.strict.files.not_declaredIn
      (hResolves.find?_of_reference hLeaves.isLoaded hLeaves.hasSimpleNames hMem hReference)
      hDeclared

/-- A class that mentions nothing that leaves is resolved as before. -/
theorem resolves_of_not_mentions {c : ResolvedClass} (hMem : c ∈ r.index.classes)
    (hNone : ¬ r.ClassMentions space c) : Resolves (r.staying space) c.fqn c := by
  have hFound := TypeIndex.class?_of_mem hLeaves.strict.index hMem
  have hStays {super : String} (hIn : super ∈ r.index.superChain c.fqn) :
      ¬ DeclaredIn r.files space super := fun hDeclared => hNone (.inl ⟨super, hIn, hDeclared⟩)
  refine (hLeaves.strict.class?_iff.mp hFound).carry hLeaves.strict.files hLeaves.isLoaded
    (P := fun name => name ∈ r.index.superChain c.fqn) (fun name hIn => ?_)
    (fun name super hIn hNeeds _ => ?_) (hLeaves.strict.mem_superChain.mpr .refl)
  · refine hLeaves.strict.files.carries_erase hLeaves.names (hStays hIn) ?_
    intro file d hDeclaration type hType target hTarget
    have hReach := hLeaves.strict.mem_superChain.mp hIn
    obtain ⟨ancestor, hAncestor, _⟩ :=
      TypeIndex.kind_of_reflTransGen hLeaves.strict.files hLeaves.strict.index hFound hReach
    obtain ⟨other, hOther, hCases⟩ := (hLeaves.strict.class?_iff.mp hAncestor).exists_resolve
      hLeaves.strict.files hDeclaration hType
    cases hOther.symm.trans hTarget
    rcases hCases with rfl | hSuper | ⟨p, hP, hReference⟩
    · exact hStays hIn
    · have hStep : r.index.Inherits name target := by
        rw [TypeIndex.Inherits, TypeIndex.superType?, hAncestor]
        exact hSuper
      exact hStays (hLeaves.strict.mem_superChain.mpr (hReach.tail hStep))
    · have hInherited := TypeIndex.properties_subset hLeaves.strict.files hLeaves.strict.index
        hReach hFound hAncestor p hP
      exact fun hDeclared => hNone (.inr ⟨p, hInherited, target, hReference, hDeclared⟩)
  · rw [hLeaves.strict.mem_superChain] at hIn ⊢
    exact hIn.tail (hLeaves.strict.inherits_of_needs hNeeds)

/-! ## Maps -/

/-- A map in which nothing finds a substitute is resolved as before, if at all. -/
theorem resolvesMap_before {m : ResolvedMap} (hNone : ¬ FindsSubstitute r.files space m.fqn)
    (hResolves : ResolvesMap (r.staying space) m) : ResolvesMap r.files m :=
  hResolves.carry hLeaves.isLoaded hLeaves.strict.files hLeaves.hasSimpleNames
    (hLeaves.strict.files.carries_of_erase hLeaves.names hNone
      fun _ _ hFound _ hMem => hLeaves.strict.exists_resolve hLeaves.names hFound hMem)

/-- A map that is still resolved mentions nothing that has left. -/
theorem not_mapMentions {m : ResolvedMap} (hResolves : ResolvesMap (r.staying space) m) :
    ¬ r.MapMentions space m := by
  obtain ⟨file, d, key, value, hDeclared, _, hResolved⟩ := hResolves
  have hFile := hLeaves.isLoaded.find?_of_mem_declarations hDeclared
  obtain ⟨_, hKey, hValue, _⟩ := TypeIndex.resolveMap_eq_ok hResolved
  rintro ⟨target, hReference | hReference, hLeft⟩
  · exact hLeaves.strict.files.not_declaredIn (hLeaves.isLoaded.find?_of_reference
      hLeaves.hasSimpleNames hFile (ClassBody.resolveProperty_eq_ok hKey).1 hReference) hLeft
  · exact hLeaves.strict.files.not_declaredIn (hLeaves.isLoaded.find?_of_reference
      hLeaves.hasSimpleNames hFile (ClassBody.resolveProperty_eq_ok hValue).1 hReference) hLeft

/-- A map that mentions nothing that leaves is resolved as before. -/
theorem resolvesMap_of_not_mentions {m : ResolvedMap} (hResolves : ResolvesMap r.files m)
    (hStays : ¬ DeclaredIn r.files space m.fqn) (hNone : ¬ r.MapMentions space m) :
    ResolvesMap (r.staying space) m := by
  refine hResolves.carry hLeaves.strict.files hLeaves.isLoaded hLeaves.names
    (hLeaves.strict.files.carries_erase hLeaves.names hStays ?_)
  intro file d hFound type hType target hTarget hDeclared
  obtain ⟨_, _, _, _, hSame, hBody, hResolved⟩ :=
    hResolves.exists_find? hLeaves.strict.files hLeaves.names
  cases hFound.symm.trans hSame
  obtain ⟨other, hOther, hReference⟩ :=
    ModelFiles.exists_resolve_of_resolveMap hBody hResolved hType
  cases hOther.symm.trans hTarget
  exact hNone ⟨target, hReference, hDeclared⟩

/-! ## After the check of the relationships -/

variable {whole index : TypeIndex}
  (hChecked : TypeIndex.IsChecked (r.staying space) .lenient whole index)
include hChecked

/-- Where no target is captured, pointers still point to identified classes. -/
theorem pointsToIdentified {type : ResolvedType} (hPoints : r.index.PointsToIdentified type)
    (hNone : ¬ r.HasCapturedTarget space type) : whole.PointsToIdentified type := by
  intro target c hType hFound
  have hResolves := (hChecked.isWhole.class?_eq_some hLeaves.isLoaded).mp hFound
  have hBefore := hLeaves.resolves_before (fun h => hNone ⟨target, hType, h⟩) hResolves
  exact hPoints target c hType (hLeaves.strict.class?_iff.mpr hBefore)

/-- A class that is still resolved is indexed if its own pointers point to identified classes. -/
theorem class?_of_resolves {c : ResolvedClass} (hResolves : Resolves (r.staying space) c.fqn c)
    (hPoints : ∀ p ∈ c.ownProperties, whole.PointsToIdentified p.type) :
    index.class? c.fqn = some c := by
  refine (hChecked.classes _ _).mpr
    ⟨(hChecked.isWhole.class?_eq_some hLeaves.isLoaded).mpr hResolves, ?_⟩
  rintro (⟨other, hOther, hName, p, hOwn, hAstray⟩ | ⟨m, hM, hName, _⟩)
  · have hOtherResolves := (hChecked.isWhole.classes other).mp hOther
    rw [hName] at hOtherResolves
    obtain rfl := hOtherResolves.unique hResolves
    exact hAstray (hPoints p hOwn)
  · exact (hChecked.isWhole.maps m hM).not_resolves hLeaves.isLoaded hLeaves.hasSimpleNames c
      (hName ▸ hResolves)

theorem not_pointsAstray_of_map {m : ResolvedMap} (hMem : m ∈ r.index.maps)
    (hResolves : ResolvesMap (r.staying space) m)
    (hNone : ¬ r.HasCapturedTarget space m.value.type) : ¬ whole.PointsAstray m.fqn := by
  rintro (⟨c, hC, hName, _⟩ | ⟨other, hOther, hName, hAstray⟩)
  · exact hResolves.not_resolves hLeaves.isLoaded hLeaves.hasSimpleNames c
      (hName ▸ (hChecked.isWhole.classes c).mp hC)
  · obtain rfl := hResolves.unique hLeaves.isLoaded hLeaves.hasSimpleNames
      (hChecked.isWhole.maps other hOther) hName
    refine hAstray (hLeaves.pointsToIdentified hChecked ?_ hNone)
    exact (TypeIndex.isClosed_of_strict hLeaves.strict.files hLeaves.strict.index).maps _ hMem

end MayLeave

/-- What is left when a namespace was taken out has an index of its own. -/
theorem exists_index_of_removeModel {next : Registry} (hNext : r.removeModel space = .ok next) :
    ∃ index, next = { r with files := r.staying space, index } := by
  simp only [removeModel, Outcome.bind_eq_ok] at hNext
  obtain ⟨_, _, hNext⟩ := hNext
  split at hNext
  · simp at hNext
  · simp only [withFiles, Outcome.bind_eq_ok, Outcome.pure_eq_ok] at hNext
    obtain ⟨index, _, rfl⟩ := hNext
    exact ⟨index, rfl⟩

theorem removeModel_files {next : Registry} (hNext : r.removeModel space = .ok next) :
    next.files = r.staying space := by
  obtain ⟨_, rfl⟩ := exists_index_of_removeModel hNext
  rfl

theorem exists_removeModel (hUser : space ∈ r.userSpaces) :
    ∃ next, r.removeModel space = .ok next := by
  obtain ⟨hKey, hOther⟩ := List.mem_filter.mp hUser
  have hContains : Table.contains r.files space = true := Table.mem_keys.mp hKey
  obtain ⟨index, hIndex⟩ := TypeIndex.build_lenient (Table.erase space r.files)
  refine ⟨{ r with files := Table.erase space r.files, index }, ?_⟩
  simp only [removeModel, Outcome.bind_eq_ok]
  refine ⟨(), checkNotSystem_eq_ok.mpr (by simpa using hOther), ?_⟩
  rw [if_neg (by simp [hContains])]
  exact withFiles_of_build hIndex

/-- Deleting a namespace takes its dependents along and changes nothing else, unless references find
a substitute. A class whose entry mentions a declaration of the namespace is left out, provided that
nothing takes the place of the namespace in the declarations of the class and of its super types.
Every other class keeps its entry, provided that nothing takes the place of the namespace in the
classes to which its own relationships point. So it is with maps. -/
theorem frame_of_removeModel {changes : List Change} {space : String}
    (hValid : (Session.initial.run changes).registry.validate = .ok ())
    (hNames : HasSimpleNames (Session.initial.run changes).registry.files)
    (hUser : space ∈ (Session.initial.run changes).registry.userSpaces) :
    let r := (Session.initial.run changes).registry
    ∃ next, r.removeModel space = .ok next ∧
      (∀ c ∈ r.index.classes, ¬ DeclaredIn r.files space c.fqn →
        (r.ClassMentions space c → ¬ r.IsCaptured space c.fqn →
          next.index.class? c.fqn = none) ∧
        (¬ r.ClassMentions space c →
          (∀ p ∈ c.ownProperties, ¬ r.HasCapturedTarget space p.type) →
          next.index.class? c.fqn = some c)) ∧
      ∀ m ∈ r.index.maps, ¬ DeclaredIn r.files space m.fqn →
        (r.MapMentions space m → ¬ FindsSubstitute r.files space m.fqn →
          next.index.map? m.fqn = none) ∧
        (¬ r.MapMentions space m → ¬ r.HasCapturedTarget space m.value.type →
          next.index.map? m.fqn = some m) := by
  intro r
  have hStrict : r.IsStrict := isStrict_of_validate hValid
  have hLeaves : MayLeave r space :=
    ⟨hStrict, hNames, by simpa using (List.mem_filter.mp hUser).2⟩
  obtain ⟨next, hNext⟩ := exists_removeModel hUser
  have hStays : next.files = r.staying space := removeModel_files hNext
  obtain ⟨_, hBuild⟩ := removeModel_eq_ok hStrict.files hNext
  rw [hStays] at hBuild
  obtain ⟨whole, hChecked, hMaps⟩ :=
    TypeIndex.exists_isChecked_maps hLeaves.isLoaded hLeaves.hasSimpleNames hBuild
  refine ⟨next, hNext, fun c hMem _ => ⟨fun hMentions hFree => ?_, fun hNone hTargets => ?_⟩,
    fun m hMem hOther => ⟨fun hMentions hFree => ?_, fun hNone hTarget => ?_⟩⟩
  · refine Option.eq_none_iff_forall_ne_some.mpr fun found hFound => ?_
    have hResolves := TypeIndex.resolves_of_class? hLeaves.isLoaded hBuild hFound
    have hBefore := hLeaves.resolves_before hFree hResolves
    have hSame := hStrict.class?_iff.mp (TypeIndex.class?_of_mem hStrict.index hMem)
    rw [hBefore.unique hSame] at hResolves
    exact hLeaves.not_classMentions hFree hResolves hMentions
  · refine hLeaves.class?_of_resolves hChecked (hLeaves.resolves_of_not_mentions hMem hNone)
      fun p hOwn => hLeaves.pointsToIdentified hChecked ?_ (hTargets p hOwn)
    exact (TypeIndex.isClosed_of_strict hStrict.files hStrict.index).properties c hMem p
      (List.mem_of_mem_filter hOwn)
  · refine Option.eq_none_iff_forall_ne_some.mpr fun found hFound => ?_
    obtain ⟨hResolves, hName, _⟩ := (hMaps m.fqn found).mp hFound
    have hBefore := hLeaves.resolvesMap_before (hName ▸ hFree) hResolves
    have hSame := hStrict.resolvesMap_of_mem hMem
    rw [hSame.unique hStrict.files hNames hBefore hName] at hResolves
    exact hLeaves.not_mapMentions hResolves hMentions
  · have hResolves := hLeaves.resolvesMap_of_not_mentions (hStrict.resolvesMap_of_mem hMem) hOther
      hNone
    exact (hMaps m.fqn m).mpr
      ⟨hResolves, rfl, hLeaves.not_pointsAstray_of_map hChecked hMem hResolves hTarget⟩

end Registry

/-! ## A namespace of which a root class takes the place -/

namespace Shop

def parts : String := "parts@1.0.0"

def space : String := "shop@1.0.0"

/-- Assets and bolts. -/
def partsModel : Metamodel.Model :=
  { Metamodel.Model.empty parts with
    declarations :=
      [⟨"Asset", .classBody .concept false none none [], [], none⟩,
       ⟨"Bolt", .classBody .concept false none none [], [], none⟩] }

/-- Orders of assets, racks with bolts, and notes. All parts are imported. -/
def model : Metamodel.Model :=
  { Metamodel.Model.empty space with
    imports := [⟨parts, .all, none⟩]
    declarations :=
      [⟨"Order", .classBody .concept false none none
         [⟨"item", .typed (.object ⟨"Asset", none⟩ none) false false, [], none⟩], [], none⟩,
       ⟨"Rack", .classBody .concept false none none
         [⟨"bolt", .typed (.object ⟨"Bolt", none⟩ none) false false, [], none⟩], [], none⟩,
       ⟨"Note", .classBody .concept false none none [], [], none⟩] }

def partsFile : ModelFile where
  space := parts
  version := ⟨"parts", some ⟨1, 0, 0, "", ""⟩⟩
  fileName := none
  checksum := ModelFile.checksumOf partsModel
  model := partsModel
  declarations :=
    [⟨"Asset", parts, .classBody ⟨.concept, false, none, none, []⟩, [], none⟩,
     ⟨"Bolt", parts, .classBody ⟨.concept, false, none, none, []⟩, [], none⟩]
  explicitImports := []
  wildcardImports := []
  decorators := []

def itemProperty : Property := ⟨"item", .declared ⟨"Asset", none⟩ none, false, false, [], none⟩

def boltProperty : Property := ⟨"bolt", .declared ⟨"Bolt", none⟩ none, false, false, [], none⟩

def orderDeclaration : Declaration :=
  ⟨"Order", space, .classBody ⟨.concept, false, none, none, [itemProperty]⟩, [], none⟩

def rackDeclaration : Declaration :=
  ⟨"Rack", space, .classBody ⟨.concept, false, none, none, [boltProperty]⟩, [], none⟩

def noteDeclaration : Declaration :=
  ⟨"Note", space, .classBody ⟨.concept, false, none, none, []⟩, [], none⟩

def file : ModelFile where
  space := space
  version := ⟨"shop", some ⟨1, 0, 0, "", ""⟩⟩
  fileName := none
  checksum := ModelFile.checksumOf model
  model := model
  declarations := [orderDeclaration, rackDeclaration, noteDeclaration]
  explicitImports := []
  wildcardImports := [parts]
  decorators := []

def asset : ResolvedClass := .concept parts "Asset" none none []

def bolt : ResolvedClass := .concept parts "Bolt" none none []

def order : ResolvedClass :=
  .concept space "Order" none none
    [⟨itemProperty, "shop@1.0.0.Order", .declared "parts@1.0.0.Asset" none⟩]

def rack : ResolvedClass :=
  .concept space "Rack" none none
    [⟨boltProperty, "shop@1.0.0.Rack", .declared "parts@1.0.0.Bolt" none⟩]

def note : ResolvedClass := .concept space "Note" none none []

/-- The registry into which both models have been loaded. -/
def registry : Registry where
  files := [(rootNamespace, Root.file), (parts, partsFile), (space, file)]
  index := ⟨Root.index.classes ++ [asset, bolt, order, rack, note], []⟩
  factories := []

theorem build_files : TypeIndex.build registry.files .strict = .ok registry.index := by
  have hEach : TypeIndex.resolveEach registry.files .strict
      [asset.fqn, bolt.fqn, order.fqn, rack.fqn, note.fqn] Root.findings =
      .ok [asset, bolt, order, rack, note] := by
    refine Root.resolveEach_cons_sub rfl rfl rfl rfl rfl ?_
    refine Root.resolveEach_cons_sub rfl rfl rfl rfl rfl ?_
    refine Root.resolveEach_cons_sub rfl rfl rfl rfl rfl ?_
    refine Root.resolveEach_cons_sub rfl rfl rfl rfl rfl ?_
    exact Root.resolveEach_cons_sub rfl rfl rfl rfl rfl rfl
  exact (Root.build_of_rest rfl rfl rfl hEach rfl rfl rfl).trans
    (TypeIndex.checkPointers_of_no_pointers .strict (by decide) (by decide))

/-- The registry is the one into which both models are loaded. -/
theorem run_models : (Session.initial.run
    [.addModels [⟨partsModel, none⟩, ⟨model, none⟩] false]).registry = registry := by
  have hAdded : Session.initial.registry.addFiles Session.initial.registry.files
      [⟨partsModel, none⟩, ⟨model, none⟩] = .ok (registry.files, [partsFile, file]) := rfl
  exact Session.run_addModels (Registry.addModels_of_build hAdded build_files)

theorem validate_registry : registry.validate = .ok () := Registry.validate_of_build build_files

theorem hasSimpleNames_registry : HasSimpleNames registry.files := by decide +kernel

theorem mem_userSpaces : parts ∈ registry.userSpaces := by decide

theorem mayLeave_parts : registry.MayLeave parts where
  strict := run_models ▸ Registry.isStrict_of_validate (run_models ▸ validate_registry)
  names := hasSimpleNames_registry
  user := by decide

/-- Orders of the assets of the root model. -/
def rootOrder : ResolvedClass :=
  .concept space "Order" none none
    [⟨itemProperty, "shop@1.0.0.Order", .declared "concerto@1.0.0.Asset" none⟩]

end Shop

namespace Registry

/-- Orders mention the assets that leave, but are not left out: the name is found among the root
classes, so that orders are now orders of these. -/
theorem keeps_order :
    (Session.initial.run [.addModels [⟨Shop.partsModel, none⟩, ⟨Shop.model, none⟩] false]).registry =
      Shop.registry ∧
    Shop.registry.validate = .ok () ∧ HasSimpleNames Shop.registry.files ∧
    Shop.parts ∈ Shop.registry.userSpaces ∧ Shop.order ∈ Shop.registry.index.classes ∧
    ¬ DeclaredIn Shop.registry.files Shop.parts Shop.order.fqn ∧
    Shop.registry.ClassMentions Shop.parts Shop.order ∧
    ∃ next, Shop.registry.removeModel Shop.parts = .ok next ∧
      next.index.class? Shop.order.fqn = some Shop.rootOrder ∧ Shop.rootOrder ≠ Shop.order := by
  have hStays : ¬ DeclaredIn Shop.registry.files Shop.parts Shop.order.fqn :=
    ModelFiles.not_declaredIn_of_find? rfl (by decide)
  refine ⟨Shop.run_models, Shop.validate_registry, Shop.hasSimpleNames_registry,
    Shop.mem_userSpaces, by simp [Shop.registry], hStays, ?_, ?_⟩
  · exact .inr ⟨_, List.mem_cons_self, "parts@1.0.0.Asset", rfl, Shop.partsFile, _, rfl, rfl⟩
  · obtain ⟨next, hNext⟩ := exists_removeModel Shop.mem_userSpaces
    obtain ⟨_, hBuild⟩ := removeModel_eq_ok Shop.mayLeave_parts.strict.files hNext
    rw [removeModel_files hNext] at hBuild
    obtain ⟨whole, hChecked⟩ := TypeIndex.exists_isChecked Shop.mayLeave_parts.isLoaded hBuild
    have hConcept : Resolves (Shop.registry.staying Shop.parts) ClassKind.concept.rootClass
        (Root.resolvedClass .concept none) := .base rfl rfl rfl
    have hOrder : Resolves (Shop.registry.staying Shop.parts) Shop.rootOrder.fqn Shop.rootOrder :=
      .sub rfl rfl hConcept rfl
    refine ⟨next, hNext, Shop.mayLeave_parts.class?_of_resolves hChecked hOrder ?_, ?_⟩
    · intro p hOwn target c hType
      rw [List.mem_singleton.mp (List.mem_of_mem_filter hOwn)] at hType
      cases hType
    · intro hSame
      have hTypes := congrArg (fun c => c.properties.map (·.type.target?)) hSame
      exact absurd hTypes (by decide)

/-- Racks hold bolts and are left out, notes stay as they are. -/
theorem frame_of_shop : Shop.registry.validate = .ok () ∧ HasSimpleNames Shop.registry.files ∧
    Shop.parts ∈ Shop.registry.userSpaces ∧
    ∃ next, Shop.registry.removeModel Shop.parts = .ok next ∧
      next.index.class? Shop.rack.fqn = none ∧
      next.index.class? Shop.note.fqn = some Shop.note := by
  have hFrame := frame_of_removeModel (Shop.run_models ▸ Shop.validate_registry)
    (Shop.run_models ▸ Shop.hasSimpleNames_registry) (Shop.run_models ▸ Shop.mem_userSpaces)
  rw [Shop.run_models] at hFrame
  obtain ⟨next, hNext, hClasses, _⟩ := hFrame
  have hConcept : ¬ DeclaredIn Shop.registry.files Shop.parts ClassKind.concept.rootClass :=
    ModelFiles.not_declaredIn_of_find? rfl (by decide)
  have hRack : ¬ DeclaredIn Shop.registry.files Shop.parts Shop.rack.fqn :=
    ModelFiles.not_declaredIn_of_find? rfl (by decide)
  have hNote : ¬ DeclaredIn Shop.registry.files Shop.parts Shop.note.fqn :=
    ModelFiles.not_declaredIn_of_find? rfl (by decide)
  refine ⟨Shop.validate_registry, Shop.hasSimpleNames_registry, Shop.mem_userSpaces, next, hNext,
    (hClasses _ (by simp [Shop.registry]) hRack).1 ?_ ?_,
    (hClasses _ (by simp [Shop.registry]) hNote).2 ?_ ?_⟩
  · exact .inr ⟨_, List.mem_cons_self, "parts@1.0.0.Bolt", rfl, Shop.partsFile, _, rfl, rfl⟩
  · -- Nothing else is called a bolt, and the root class refers to nothing.
    rintro ⟨super, hIn, file, d, type, target, other, hFound, hMem, _, _, hOther⟩
    rw [show Shop.registry.index.superChain Shop.rack.fqn =
      [Shop.rack.fqn, ClassKind.concept.rootClass] from rfl] at hIn
    rcases List.mem_cons.mp hIn with rfl | hIn
    · cases (show ModelFiles.find? Shop.registry.files Shop.rack.fqn =
        some (Shop.file, Shop.rackDeclaration) from rfl).symm.trans hFound
      rw [List.mem_singleton.mp hMem] at hOther
      cases hOther
    · rw [List.mem_singleton.mp hIn] at hFound
      cases (Shop.mayLeave_parts.strict.files.find?_rootClass .concept).symm.trans hFound
      cases hMem
  · rintro (⟨super, hIn, hDeclared⟩ | ⟨p, hMem, _⟩)
    · rw [show Shop.registry.index.superChain Shop.note.fqn =
        [Shop.note.fqn, ClassKind.concept.rootClass] from rfl] at hIn
      rcases List.mem_cons.mp hIn with rfl | hIn
      · exact hNote hDeclared
      · exact hConcept (List.mem_singleton.mp hIn ▸ hDeclared)
    · cases hMem
  · intro p hOwn
    cases List.mem_of_mem_filter hOwn

end Registry

end DomainModels
