import DomainModels.Proofs.Registry.ClosedWorld

/-!
What identifies the instances of a class.

A class names a field of its own, or it is identified as its super type is. What a class outside of
the root model names holds for all of its descendants. Only the identifier that the root model
supplies to assets and participants can be replaced, once, by one of these classes.
-/

namespace DomainModels

open ModelFiles (Resolves Needs IsLoaded findClass)
open Relation (ReflTransGen)

/-- The field that is declared to be the identifier. -/
def Metamodel.Identified.field : Metamodel.Identified → String
  | .system => identifierField
  | .by name => name

namespace ClassBody

variable {files : ModelFiles} {file : ModelFile} {d : Declaration} {body : ClassBody}
  {parent : Option ResolvedClass} {declared : List ResolvedProperty} {c : ResolvedClass}

/-- What a class declares goes before what it inherits. -/
theorem identifier_assemble : (body.assemble d parent declared).identifier =
    (body.identified.map (·.field)).or (parent.bind (·.identifier)) := by
  cases hIdentified : body.identified with
  | none => simp [assemble, hIdentified]
  | some identified => cases identified <;> simp [assemble, hIdentified, Metamodel.Identified.field]

theorem identifierOwner_assemble : (body.assemble d parent declared).identifierOwner =
    (body.identified.map fun _ => d.fqn).or (parent.bind (·.identifierOwner)) := by
  cases hIdentified : body.identified with
  | none => simp [assemble, hIdentified]
  | some identified => simp [assemble, hIdentified]

/-- A class that is resolved declares no identifier where the inherited one is fixed. -/
theorem identified_eq_none (hResolved : body.resolve files file d parent = .ok c)
    (hFixed : fixesIdentifier parent = true) : body.identified = none := by
  unfold resolve at hResolved
  simp only [] at hResolved
  split at hResolved
  · simp at hResolved
  · rename_i hAllowed
    by_contra hSome
    exact hAllowed ⟨Option.isSome_iff_ne_none.mpr hSome, hFixed⟩

end ClassBody

namespace ModelFiles

variable {files : ModelFiles} {fqn space field : String} {c : ResolvedClass}

/-- A class declares, in a namespace, that a field identifies its instances. -/
def Identifies (files : ModelFiles) (fqn space field : String) : Prop :=
  ∃ file d body identified, findClass files fqn = .ok (file, d, body) ∧ d.space = space ∧
    body.identified = some identified ∧ identified.field = field

/-- A class declares so in another namespace than that of the root model. -/
def IdentifiesOutsideRoot (files : ModelFiles) (fqn field : String) : Prop :=
  ∃ space, space ≠ rootNamespace ∧ Identifies files fqn space field

/-- The root types are the classes of the root namespace. -/
theorem IsLoaded.isRootType_iff (hFiles : IsLoaded files) {file : ModelFile} {d : Declaration}
    {body : ClassBody} (hFound : findClass files fqn = .ok (file, d, body)) :
    isRootType fqn = true ↔ d.space = rootNamespace := by
  constructor
  · intro hRoot
    obtain ⟨hFind, _⟩ := findClass_eq_ok.mp hFound
    simp only [ModelFiles.find?, Option.bind_eq_bind, Option.bind_eq_some_iff] at hFind
    obtain ⟨⟨home, name⟩, hSplit, other, hFile, found, hDeclaration, hSame⟩ := hFind
    cases hSame
    obtain ⟨hMade, hSpace⟩ := hFiles.of_find? hFile
    obtain ⟨hMem, _⟩ := ModelFile.mem_of_declaration? hDeclaration
    simp only [isRootType, hSplit, Bool.and_eq_true, decide_eq_true_eq] at hRoot
    rw [hMade.spaces d hMem, hSpace, hRoot.1]
  · intro hSpace
    rw [(hFiles.rootClass_of_space hFound hSpace).1]
    cases body.kind <;> decide

/-- The root model identifies its classes by the field of the system. -/
theorem Identifies.field_of_root (hFiles : IsLoaded files)
    (hIdentifies : Identifies files fqn rootNamespace field) : field = identifierField := by
  obtain ⟨file, d, body, identified, hFound, hSpace, hIdentified, rfl⟩ := hIdentifies
  obtain ⟨hFind, hClass⟩ := findClass_eq_ok.mp hFound
  obtain ⟨hFile, hMem, hHome, _⟩ := hFiles.of_findDeclaration hFind
  rw [← hHome, hSpace, hFiles.root] at hFile
  cases hFile
  simp only [Root.file, List.mem_cons, List.not_mem_nil, or_false] at hMem
  rcases hMem with rfl | rfl | rfl | rfl | rfl
  all_goals
    cases hClass
    cases hIdentified <;> rfl

/-- A class is identified by what it declares itself. -/
theorem Resolves.identifier_of_identifies (hFiles : IsLoaded files)
    (hResolves : Resolves files fqn c) (hIdentifies : Identifies files fqn space field) :
    c.identifierOwner = some fqn ∧ c.identifier = some field := by
  obtain ⟨_, d, body, identified, hFound, _, hIdentified, rfl⟩ := hIdentifies
  have hName : c.fqn = fqn := hFiles.fqn_of_resolves hResolves
  obtain ⟨_, _, _, _, hFound', hResolved⟩ := hResolves.exists_declaration
  rw [hFound] at hFound'
  cases hFound'
  obtain ⟨_, _, _, _, rfl⟩ := ClassBody.resolve_eq_ok hResolved
  rw [ClassBody.identifierOwner_assemble, ClassBody.identifier_assemble, hIdentified]
  exact ⟨congrArg some hName, rfl⟩

/-- One step to the super type: a class without a declaration of its own is identified as its super
type is, and it has none where the super type's was declared outside of the root model. -/
theorem Resolves.identifier_of_super {super : String} {parent : ResolvedClass}
    (hResolves : Resolves files fqn c) (hNeeds : Needs files fqn super)
    (hParent : Resolves files super parent) :
    (parent.identifier.isSome = true → c.identifier.isSome = true) ∧
      ∀ owner, parent.identifierOwner = some owner → isRootType owner = false →
        c.identifierOwner = some owner ∧ c.identifier = parent.identifier := by
  obtain ⟨file, d, body, hFound, hSuper⟩ := hNeeds
  obtain ⟨other, hOther, hResolved⟩ := (resolves_iff_of_super hFound hSuper).mp hResolves
  obtain rfl : parent = other := hParent.unique hOther
  obtain ⟨_, _, _, _, hSame⟩ := ClassBody.resolve_eq_ok hResolved
  refine ⟨fun hSome => ?_, fun owner hOwner hOutside => ?_⟩
  · rw [hSame, ClassBody.identifier_assemble]
    simp [hSome]
  · have hFixed : ClassBody.fixesIdentifier (some parent) = true := by
      simp [ClassBody.fixesIdentifier, hOwner, hOutside]
    have hNone := ClassBody.identified_eq_none hResolved hFixed
    rw [hSame, ClassBody.identifierOwner_assemble, ClassBody.identifier_assemble, hNone]
    exact ⟨hOwner, rfl⟩

/-- A declaration on the way up identifies the class, and what is declared outside of the root model
is what identifies it. -/
theorem Resolves.identifier_of_reach (hFiles : IsLoaded files) {ancestor : String}
    (hResolves : Resolves files fqn c) (hReach : ReflTransGen (Needs files) fqn ancestor)
    (hIdentifies : Identifies files ancestor space field) :
    c.identifier.isSome = true ∧ (space ≠ rootNamespace →
      c.identifierOwner = some ancestor ∧ c.identifier = some field) := by
  induction hReach using ReflTransGen.head_induction_on generalizing c with
  | refl =>
      obtain ⟨hOwner, hField⟩ := hResolves.identifier_of_identifies hFiles hIdentifies
      exact ⟨by rw [hField]; rfl, fun _ => ⟨hOwner, hField⟩⟩
  | head hNeeds _ ih =>
      obtain ⟨parent, hParent⟩ := hResolves.needs hNeeds
      obtain ⟨hSome, hDeclared⟩ := ih hParent
      obtain ⟨hInherits, hKeeps⟩ := hResolves.identifier_of_super hNeeds hParent
      refine ⟨hInherits hSome, fun hSpace => ?_⟩
      obtain ⟨hOwner, hField⟩ := hDeclared hSpace
      have hOutside : isRootType ancestor = false := by
        obtain ⟨_, _, _, _, hFound, rfl, _⟩ := hIdentifies
        exact Bool.eq_false_iff.mpr fun hRoot => hSpace ((hFiles.isRootType_iff hFound).mp hRoot)
      obtain ⟨hSameOwner, hSameField⟩ := hKeeps ancestor hOwner hOutside
      exact ⟨hSameOwner, hSameField.trans hField⟩

/-- What identifies a class was declared on the way up. -/
theorem Resolves.exists_identifies (hResolves : Resolves files fqn c)
    (hField : c.identifier = some field) : ∃ ancestor space,
      ReflTransGen (Needs files) fqn ancestor ∧ Identifies files ancestor space field := by
  induction hResolves with
  | @base fqn file d body _ hFound _ hResolved =>
      obtain ⟨_, _, _, _, rfl⟩ := ClassBody.resolve_eq_ok hResolved
      rw [ClassBody.identifier_assemble, Option.bind_none, Option.or_none] at hField
      obtain ⟨identified, hIdentified, hSame⟩ := Option.map_eq_some_iff.mp hField
      exact ⟨fqn, d.space, .refl, file, d, body, identified, hFound, rfl, hIdentified, hSame⟩
  | @sub fqn super file d body parent _ hFound hSuper _ hResolved ih =>
      obtain ⟨_, _, _, _, rfl⟩ := ClassBody.resolve_eq_ok hResolved
      rw [ClassBody.identifier_assemble] at hField
      cases hIdentified : body.identified with
      | some identified =>
          rw [hIdentified] at hField
          exact ⟨fqn, d.space, .refl, file, d, body, identified, hFound, rfl, hIdentified,
            Option.some.inj hField⟩
      | none =>
          rw [hIdentified] at hField
          obtain ⟨ancestor, space, hReach, hIdentifies⟩ := ih hField
          exact ⟨ancestor, space, .head ⟨file, d, body, hFound, hSuper⟩ hReach, hIdentifies⟩

/-- One property bears the name of the identifier, and it can be one. -/
theorem Resolves.filter_identifier (hFiles : IsLoaded files) (hResolves : Resolves files fqn c)
    (hField : c.identifier = some field) :
    ∃ p, c.properties.filter (·.name = field) = [p] ∧ IsIdentifying p := by
  obtain ⟨p, hMem, hName, hIdentifying⟩ := hResolves.exists_identifying hFiles hField
  refine ⟨p, ?_, hIdentifying⟩
  have hFound : p ∈ c.properties.filter (·.name = field) :=
    List.mem_filter.mpr ⟨hMem, by simpa using hName⟩
  have hNames : (c.properties.filter (·.name = field)).Pairwise (·.name ≠ ·.name) :=
    (List.pairwise_map.mp (hResolves.nodup_properties hFiles)).filter _
  have hSame : ∀ q ∈ c.properties.filter (·.name = field), q.name = field := fun q hQ => by
    simpa using (List.mem_filter.mp hQ).2
  match hFiltered : c.properties.filter (·.name = field) with
  | [] => simp [hFiltered] at hFound
  | [q] =>
      rw [hFiltered] at hFound
      rw [hFiltered, List.mem_singleton.mp hFound]
  | q :: r :: _ =>
      rw [hFiltered] at hNames hSame
      have hOther : q.name ≠ r.name := List.rel_of_pairwise_cons hNames List.mem_cons_self
      exact (hOther ((hSame q (by simp)).trans (hSame r (by simp)).symm)).elim

end ModelFiles

namespace TypeIndex

variable {files : ModelFiles} {index : TypeIndex} {c : ResolvedClass}

/-- The walk to the super types is the way of the resolution. -/
theorem mem_superChain_iff_needs (hFiles : IsLoaded files)
    (hBuild : build files .strict = .ok index) (hMem : c ∈ index.classes) {name : String} :
    name ∈ index.superChain c.fqn ↔ ReflTransGen (Needs files) c.fqn name := by
  rw [(acyclic_of_build hFiles hBuild).mem_superChain]
  constructor
  · intro hReach
    exact hReach.lift id fun _ _ hStep => hStep.needs hFiles hBuild
  · intro hReach
    have hResolves := resolves_of_mem hFiles hBuild hMem
    generalize c.fqn = fqn at hReach hResolves
    clear hMem
    induction hReach using ReflTransGen.head_induction_on generalizing c with
    | refl => exact .refl
    | @head sub super hNeeds _ ih =>
        obtain ⟨parent, hParent⟩ := hResolves.needs hNeeds
        have hStep : index.superType? sub = some super := by
          rw [superType?, class?_of_resolves hFiles hBuild hResolves]
          exact hResolves.superType_of_needs hFiles hNeeds
        exact .head hStep (ih hParent)

/-- Identifiers are declared once. On the super chain of a class of a strict index, at most one
class outside of the root model declares an identifier. Its field identifies the class; without one
it is the field that a root class supplies, and no field where no class of the chain declares one.
The identifier is the name of exactly one property, which is a single text and required. What
descends from a class that is identified outside of the root model has the same identifier. -/
theorem identifier_of_class (hFiles : IsLoaded files) (hBuild : build files .strict = .ok index)
    (hMem : c ∈ index.classes) :
    (∀ a ∈ index.superChain c.fqn, ∀ b ∈ index.superChain c.fqn, ∀ field other,
      files.IdentifiesOutsideRoot a field → files.IdentifiesOutsideRoot b other → a = b) ∧
      (∀ a ∈ index.superChain c.fqn, ∀ field,
        files.IdentifiesOutsideRoot a field → c.identifier = some field) ∧
      ((¬ ∃ a ∈ index.superChain c.fqn, ∃ field, files.IdentifiesOutsideRoot a field) →
        (∃ a ∈ index.superChain c.fqn, ∃ field, files.Identifies a rootNamespace field) →
        c.identifier = some identifierField) ∧
      ((¬ ∃ a ∈ index.superChain c.fqn, ∃ space field, files.Identifies a space field) →
        c.identifier = none) ∧
      (∀ field, c.identifier = some field →
        ∃ p, c.properties.filter (·.name = field) = [p] ∧ ModelFiles.IsIdentifying p) ∧
      ∀ sub ∈ index.classes, c.fqn ∈ index.superChain sub.fqn →
        (∃ a ∈ index.superChain c.fqn, ∃ field, files.IdentifiesOutsideRoot a field) →
        sub.identifier = c.identifier := by
  have hResolves := resolves_of_mem hFiles hBuild hMem
  have hReach {a : String} : a ∈ index.superChain c.fqn ↔ ReflTransGen (Needs files) c.fqn a :=
    mem_superChain_iff_needs hFiles hBuild hMem
  have hDeclared {sub : ResolvedClass} (hSub : sub ∈ index.classes) {a field : String}
      (hChain : ReflTransGen (Needs files) sub.fqn a)
      (hIdentifies : files.IdentifiesOutsideRoot a field) :
      sub.identifierOwner = some a ∧ sub.identifier = some field := by
    obtain ⟨space, hSpace, hIdentifies⟩ := hIdentifies
    exact ((resolves_of_mem hFiles hBuild hSub).identifier_of_reach hFiles hChain hIdentifies).2
      hSpace
  refine ⟨?_, ?_, ?_, ?_, fun field => hResolves.filter_identifier hFiles, ?_⟩
  · intro a hA b hB field other hFirst hSecond
    have hOwner := (hDeclared hMem (hReach.mp hA) hFirst).1
    rw [(hDeclared hMem (hReach.mp hB) hSecond).1] at hOwner
    exact (Option.some.inj hOwner).symm
  · intro a hA field hIdentifies
    exact (hDeclared hMem (hReach.mp hA) hIdentifies).2
  · rintro hNone ⟨a, hA, _, hIdentifies⟩
    obtain ⟨hSome, _⟩ := hResolves.identifier_of_reach hFiles (hReach.mp hA) hIdentifies
    obtain ⟨field, hField⟩ := Option.isSome_iff_exists.mp hSome
    obtain ⟨owner, space, hOwner, hOrigin⟩ := hResolves.exists_identifies hField
    by_cases hSpace : space = rootNamespace
    · subst hSpace
      rw [hField, hOrigin.field_of_root hFiles]
    · exact (hNone ⟨owner, hReach.mpr hOwner, field, space, hSpace, hOrigin⟩).elim
  · intro hNone
    by_contra hSome
    obtain ⟨field, hField⟩ := Option.ne_none_iff_exists'.mp hSome
    obtain ⟨owner, space, hOwner, hOrigin⟩ := hResolves.exists_identifies hField
    exact hNone ⟨owner, hReach.mpr hOwner, space, field, hOrigin⟩
  · rintro sub hSub hBelow ⟨a, hA, field, hIdentifies⟩
    have hWay := (mem_superChain_iff_needs hFiles hBuild hSub).mp hBelow
    rw [(hDeclared hSub (hWay.trans (hReach.mp hA)) hIdentifies).2,
      (hDeclared hMem (hReach.mp hA) hIdentifies).2]

/-- Cars are identified by the number that they declare, a single text that is required. -/
theorem identifier_of_car : IsLoaded Garage.registry.files ∧
    build Garage.registry.files .strict = .ok Garage.registry.index ∧
    Garage.carClass ∈ Garage.registry.index.classes ∧
    Garage.carClass.identifier = some Garage.vin.name ∧
    ∃ p, Garage.carClass.properties.filter (·.name = Garage.vin.name) = [p] ∧
      ModelFiles.IsIdentifying p := by
  have hFiles : IsLoaded Garage.registry.files :=
    ModelFiles.isLoaded_root.put
      (show ModelFile.ofModel Garage.model none [] = .ok Garage.file from rfl) (by decide)
  have hMem : Garage.carClass ∈ Garage.registry.index.classes := by
    simp [Garage.registry]
  obtain ⟨_, hDeclared, _, _, hOne, _⟩ := identifier_of_class hFiles Garage.build_files hMem
  have hCar : Garage.registry.files.IdentifiesOutsideRoot Garage.carClass.fqn Garage.vin.name :=
    ⟨Garage.space, by decide, Garage.file, _, _, _, rfl, rfl, rfl, rfl⟩
  have hField := hDeclared Garage.carClass.fqn (by decide) Garage.vin.name hCar
  exact ⟨hFiles, Garage.build_files, hMem, hField, hOne _ hField⟩

end TypeIndex

end DomainModels
