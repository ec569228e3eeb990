import DomainModels.Proofs.Index.Inheritance

/-!
The properties of resolved classes.

A class has its own properties in the order of their declaration, then what the system adds, then
the properties of its super type. No two of them share a name, and each is owned by the class of the
super chain that introduces it.
-/

namespace DomainModels

open ModelFiles (Resolves Needs IsLoaded findClass)
open Relation (TransGen ReflTransGen)

namespace ClassBody

variable {files : ModelFiles} {file : ModelFile} {d : Declaration} {body : ClassBody}
  {parent : Option ResolvedClass} {declared : List ResolvedProperty}

/-- Declared properties bear no reserved names. Only a root class could declare one, and root
classes declare nothing. -/
theorem isSystemName_of_declared
    (hDeclared : resolveOwn files file d [] body.properties = .ok declared)
    (hRoot : d.space = rootNamespace → body.properties = []) :
    ∀ p ∈ declared, isSystemName p.name = false := by
  intro p hMem
  obtain ⟨hEach, hSystem, _, _⟩ := resolveOwn_eq_ok hDeclared
  by_contra hReserved
  rw [hRoot (hSystem p hMem (by simpa using hReserved))] at hEach
  cases hEach
  simp at hMem

/-- No two properties of a class share a name, if this is so for its super type. -/
theorem nodup_assemble (hDeclared : resolveOwn files file d [] body.properties = .ok declared)
    (hRoot : d.space = rootNamespace → body.properties = [])
    (hNew : ∀ p ∈ declared ++ body.systemProperties d.fqn (inheritedFrom parent),
      ∀ q ∈ inheritedFrom parent, q.name ≠ p.name)
    (hInherited : ((inheritedFrom parent).map (·.name)).Nodup) :
    ((body.assemble d parent declared).properties.map (·.name)).Nodup := by
  obtain ⟨_, _, _, hNames⟩ := resolveOwn_eq_ok hDeclared
  have hOwn : ((declared ++ body.systemProperties d.fqn (inheritedFrom parent)).map
      (·.name)).Nodup := by
    rw [List.map_append, List.nodup_append]
    refine ⟨hNames, nodup_systemProperties d.fqn _, ?_⟩
    intro name hMem other hOther hSame
    obtain ⟨p, hP, rfl⟩ := List.mem_map.mp hMem
    obtain ⟨q, hQ, rfl⟩ := List.mem_map.mp hOther
    have hPlain := isSystemName_of_declared hDeclared hRoot p hP
    rw [hSame, (of_mem_systemProperties hQ).2.1] at hPlain
    cases hPlain
  show ((declared ++ body.systemProperties d.fqn (inheritedFrom parent) ++
    inheritedFrom parent).map (·.name)).Nodup
  rw [List.map_append, List.nodup_append]
  refine ⟨hOwn, hInherited, ?_⟩
  intro name hMem other hOther hSame
  obtain ⟨p, hP, rfl⟩ := List.mem_map.mp hMem
  obtain ⟨q, hQ, rfl⟩ := List.mem_map.mp hOther
  exact hNew p hP q hQ hSame.symm

/-- What the system adds, by two conditions that can be put in other words. -/
theorem systemProperties_eq {fqn : String} {inherited : List ResolvedProperty} {P Q : Prop}
    [Decidable P] [Decidable Q]
    (hIdentifier : P ↔ body.identified = some .system ∧
      ¬ ∃ p ∈ inherited, p.name = identifierField)
    (hTimestamp : Q ↔ body.kind.isTimestamped = true ∧
      ¬ ∃ p ∈ inherited, p.name = timestampField) :
    body.systemProperties fqn inherited =
      (if P then [systemProperty identifierField .string fqn] else []) ++
      (if Q then [systemProperty timestampField .dateTime fqn] else []) := by
  have hAbsent (name : String) :
      (!inherited.any (·.name = name)) = true ↔ ¬ ∃ p ∈ inherited, p.name = name := by
    simp
  simp only [systemProperties, hAbsent, hIdentifier, hTimestamp]

/-- What a class does not inherit is its own. -/
theorem owner_of_own (hDeclared : resolveOwn files file d [] body.properties = .ok declared)
    {p : ResolvedProperty}
    (hMem : p ∈ declared ++ body.systemProperties d.fqn (inheritedFrom parent)) :
    p.owner = d.fqn := by
  rcases List.mem_append.mp hMem with hMem | hMem
  · exact owner_of_resolveOwn hDeclared hMem
  · exact (of_mem_systemProperties hMem).1

/-- A class has a time stamp where its kind has one, and where its super type has one. -/
theorem timestamp_assemble (hDeclared : resolveOwn files file d [] body.properties = .ok declared)
    (hRoot : d.space = rootNamespace → body.properties = []) :
    (∃ p ∈ (body.assemble d parent declared).properties, p.name = timestampField) ↔
      body.kind.isTimestamped = true ∨ ∃ p ∈ inheritedFrom parent, p.name = timestampField := by
  constructor
  · rintro ⟨p, hMem, hName⟩
    rcases List.mem_append.mp hMem with hOwn | hInherited
    · rcases List.mem_append.mp hOwn with hP | hP
      · have hPlain := isSystemName_of_declared hDeclared hRoot p hP
        rw [hName] at hPlain
        exact absurd hPlain (by decide)
      · rcases mem_systemProperties.mp hP with ⟨_, _, rfl⟩ | ⟨hKind, _, _⟩
        · exact absurd hName (by decide : identifierField ≠ timestampField)
        · exact .inl hKind
    · exact .inr ⟨p, hInherited, hName⟩
  · intro hTimed
    by_cases hInherits : ∃ p ∈ inheritedFrom parent, p.name = timestampField
    · obtain ⟨p, hP, hName⟩ := hInherits
      exact ⟨p, List.mem_append_right _ hP, hName⟩
    · have hKind := hTimed.resolve_right hInherits
      have hNew : ∀ p ∈ inheritedFrom parent, p.name ≠ timestampField :=
        fun p hP hName => hInherits ⟨p, hP, hName⟩
      have hAdded : systemProperty timestampField .dateTime d.fqn ∈
          body.systemProperties d.fqn (inheritedFrom parent) :=
        mem_systemProperties.mpr (.inr ⟨hKind, hNew, rfl⟩)
      exact ⟨_, List.mem_append_left _ (List.mem_append_right _ hAdded), rfl⟩

/-- A class with the identifier of the system is identified, if this is so for its super type. -/
theorem isIdentified_assemble
    (hDeclared : resolveOwn files file d [] body.properties = .ok declared)
    (hRoot : d.space = rootNamespace → body.properties = [])
    (hInherited : (∃ p ∈ inheritedFrom parent, p.name = identifierField) →
      (parent.bind (·.identifier)).isSome = true)
    (hHas : ∃ p ∈ (body.assemble d parent declared).properties, p.name = identifierField) :
    (body.assemble d parent declared).isIdentified = true := by
  unfold ResolvedClass.isIdentified assemble
  cases hIdentified : body.identified with
  | some identified => cases identified <;> rfl
  | none =>
      obtain ⟨p, hMem, hName⟩ := hHas
      rcases List.mem_append.mp hMem with hOwn | hP
      · rcases List.mem_append.mp hOwn with hP | hP
        · have hPlain := isSystemName_of_declared hDeclared hRoot p hP
          rw [hName] at hPlain
          exact absurd hPlain (by decide)
        · rcases mem_systemProperties.mp hP with ⟨hSystem, _, _⟩ | ⟨_, _, rfl⟩
          · rw [hIdentified] at hSystem
            cases hSystem
          · exact absurd hName (by decide : timestampField ≠ identifierField)
      · exact hInherited ⟨p, hP, hName⟩

end ClassBody

namespace ModelFiles

variable {files : ModelFiles} {fqn : String} {c : ResolvedClass}

/-- No two properties of a class share a name. -/
theorem Resolves.nodup_properties (hFiles : IsLoaded files) (hResolves : Resolves files fqn c) :
    (c.properties.map (·.name)).Nodup := by
  induction hResolves with
  | base hFound _ hResolved =>
      obtain ⟨_, hDeclared, hNew, _, rfl⟩ := ClassBody.resolve_eq_ok hResolved
      exact ClassBody.nodup_assemble hDeclared
        (fun hSpace => (hFiles.rootClass_of_space hFound hSpace).2.2) hNew List.nodup_nil
  | sub hFound _ _ hResolved ih =>
      obtain ⟨_, hDeclared, hNew, _, rfl⟩ := ClassBody.resolve_eq_ok hResolved
      exact ClassBody.nodup_assemble hDeclared
        (fun hSpace => (hFiles.rootClass_of_space hFound hSpace).2.2) hNew ih

/-- What a class needs to be resolved hands its properties down. -/
theorem Resolves.properties_subset {super : String} {ancestor : ResolvedClass}
    (hResolves : Resolves files fqn c) (hNeeds : Needs files fqn super)
    (hAncestor : Resolves files super ancestor) : ∀ p ∈ ancestor.properties, p ∈ c.properties := by
  obtain ⟨file, d, body, hFound, hSuper⟩ := hNeeds
  obtain ⟨parent, hParent, hResolved⟩ := (resolves_iff_of_super hFound hSuper).mp hResolves
  rw [hAncestor.unique hParent]
  obtain ⟨_, _, _, _, rfl⟩ := ClassBody.resolve_eq_ok hResolved
  exact fun p hMem => List.mem_append_right _ hMem

/-- The time stamp is a property of transactions and events, and of nothing else. -/
theorem Resolves.timestamp_iff (hFiles : IsLoaded files) (hResolves : Resolves files fqn c) :
    (∃ p ∈ c.properties, p.name = timestampField) ↔ c.kind.isTimestamped = true := by
  induction hResolves with
  | base hFound _ hResolved =>
      obtain ⟨_, hDeclared, _, _, rfl⟩ := ClassBody.resolve_eq_ok hResolved
      rw [ClassBody.timestamp_assemble hDeclared fun hSpace =>
        (hFiles.rootClass_of_space hFound hSpace).2.2]
      simp [ClassBody.inheritedFrom, ClassBody.assemble]
  | @sub fqn super _ _ body parent c hFound hSuper hParent hResolved ih =>
      have hKinds := Resolves.kind_of_super hFiles (.sub hFound hSuper hParent hResolved)
        ⟨_, _, _, hFound, hSuper⟩ hParent
      obtain ⟨_, hDeclared, _, _, rfl⟩ := ClassBody.resolve_eq_ok hResolved
      rw [ClassBody.timestamp_assemble hDeclared fun hSpace =>
        (hFiles.rootClass_of_space hFound hSpace).2.2]
      have hInherited : (∃ p ∈ ClassBody.inheritedFrom (some parent), p.name = timestampField) ↔
          parent.kind.isTimestamped = true := ih
      rw [hInherited]
      rcases hKinds with hSame | ⟨_, hConcept⟩
      · rw [hSame]
        exact or_self_iff
      · have hUntimed : ¬ parent.kind.isTimestamped = true := by
          rw [hConcept]
          decide
        exact or_iff_left hUntimed

/-- A class with the identifier of the system among its properties is identified. -/
theorem Resolves.isIdentified_of_mem (hFiles : IsLoaded files) (hResolves : Resolves files fqn c)
    (hHas : ∃ p ∈ c.properties, p.name = identifierField) : c.isIdentified = true := by
  induction hResolves with
  | base hFound _ hResolved =>
      obtain ⟨_, hDeclared, _, _, rfl⟩ := ClassBody.resolve_eq_ok hResolved
      exact ClassBody.isIdentified_assemble hDeclared
        (fun hSpace => (hFiles.rootClass_of_space hFound hSpace).2.2)
        (by simp [ClassBody.inheritedFrom]) hHas
  | sub hFound _ _ hResolved ih =>
      obtain ⟨_, hDeclared, _, _, rfl⟩ := ClassBody.resolve_eq_ok hResolved
      exact ClassBody.isIdentified_assemble hDeclared
        (fun hSpace => (hFiles.rootClass_of_space hFound hSpace).2.2) ih hHas

end ModelFiles

namespace TypeIndex

variable {files : ModelFiles} {index : TypeIndex} {c : ResolvedClass}

/-- A class has a property of a name that its super type does not have. -/
def Introduces (index : TypeIndex) (c : ResolvedClass) (p : ResolvedProperty) : Prop :=
  p ∈ c.properties ∧ ∀ super parent, c.superType = some super → index.class? super = some parent →
    ∀ q ∈ parent.properties, q.name ≠ p.name

/-- A class inherits a property of a name from one of its ancestors. -/
def AncestorHas (index : TypeIndex) (c : ResolvedClass) (name : String) : Prop :=
  ∃ super ancestor, TransGen index.Inherits c.fqn super ∧ index.class? super = some ancestor ∧
    ∃ p ∈ ancestor.properties, p.name = name

/-- Properties are handed down along every walk. -/
theorem properties_subset (hFiles : IsLoaded files) (hBuild : build files .strict = .ok index)
    {sub super : String} {ancestor : ResolvedClass} (hReach : ReflTransGen index.Inherits sub super)
    (hFound : index.class? sub = some c) (hAncestor : index.class? super = some ancestor) :
    ∀ p ∈ ancestor.properties, p ∈ c.properties := by
  induction hReach generalizing ancestor with
  | refl =>
      rw [hFound] at hAncestor
      cases hAncestor
      exact fun _ hMem => hMem
  | tail _ hStep ih =>
      obtain ⟨middle, _, hMiddle, _⟩ := Inherits.kind hFiles hBuild hStep
      have hHanded := (resolves_of_class? hFiles hBuild hMiddle).properties_subset
        (hStep.needs hFiles hBuild) (resolves_of_class? hFiles hBuild hAncestor)
      exact fun p hMem => ih hMiddle p (hHanded p hMem)

/-- Each property is owned by an ancestor, or by the class itself, that introduces it. -/
theorem introduces_owner (hFiles : IsLoaded files) (hBuild : build files .strict = .ok index)
    {fqn : String} (hResolves : Resolves files fqn c) {p : ResolvedProperty}
    (hMem : p ∈ c.properties) :
    ReflTransGen index.Inherits fqn p.owner ∧
      ∃ owner, index.class? p.owner = some owner ∧ index.Introduces owner p := by
  induction hResolves with
  | @base fqn file d body c hFound hNone hResolved =>
      have hResolves : Resolves files fqn c := .base hFound hNone hResolved
      have hName := hFiles.fqn_of_resolves hResolves
      have hIndexed := class?_of_resolves hFiles hBuild hResolves
      obtain ⟨declared, hDeclared, hNew, _, rfl⟩ := ClassBody.resolve_eq_ok hResolved
      have hOwn : p ∈ declared ++ body.systemProperties d.fqn (ClassBody.inheritedFrom none) := by
        simpa [ClassBody.assemble, ClassBody.inheritedFrom] using hMem
      have hOwner : p.owner = fqn := (ClassBody.owner_of_own hDeclared hOwn).trans hName
      rw [hOwner]
      exact ⟨.refl, _, hIndexed, hMem, nofun⟩
  | @sub fqn super file d body parent c hFound hSuper hParent hResolved ih =>
      have hResolves : Resolves files fqn c := .sub hFound hSuper hParent hResolved
      have hName := hFiles.fqn_of_resolves hResolves
      have hIndexed := class?_of_resolves hFiles hBuild hResolves
      have hParentName : parent.fqn = super := hFiles.fqn_of_resolves hParent
      have hParentIndexed : index.class? parent.fqn = some parent := by
        rw [hParentName]
        exact class?_of_resolves hFiles hBuild hParent
      obtain ⟨declared, hDeclared, hNew, _, rfl⟩ := ClassBody.resolve_eq_ok hResolved
      rcases List.mem_append.mp hMem with hOwn | hInherited
      · have hOwner : p.owner = fqn := (ClassBody.owner_of_own hDeclared hOwn).trans hName
        rw [hOwner]
        refine ⟨.refl, _, hIndexed, hMem, ?_⟩
        rintro _ other ⟨⟩ hOther q hQ
        obtain rfl : parent = other := Option.some.inj (hParentIndexed.symm.trans hOther)
        exact hNew p hOwn q hQ
      · obtain ⟨hReach, hOwner⟩ := ih hInherited
        have hStep : index.Inherits fqn super := by
          rw [Inherits, superType?, hIndexed, ← hParentName]
          rfl
        exact ⟨.head hStep hReach, hOwner⟩

/-- What a class of a strict index inherits is what its ancestors have. -/
theorem ancestorHas_iff (hFiles : IsLoaded files) (hBuild : build files .strict = .ok index)
    (hFound : index.class? c.fqn = some c) {name : String} :
    index.AncestorHas c name ↔ ∃ super parent, c.superType = some super ∧
      index.class? super = some parent ∧ ∃ p ∈ parent.properties, p.name = name := by
  constructor
  · rintro ⟨super, ancestor, hReach, hAncestor, p, hMem, hName⟩
    obtain ⟨next, hFirst, hRest⟩ := TransGen.head'_iff.mp hReach
    obtain ⟨_, parent, _, hParent, _⟩ := Inherits.kind hFiles hBuild hFirst
    have hSuper : c.superType = some next := by
      simpa [Inherits, superType?, hFound] using hFirst
    exact ⟨next, parent, hSuper, hParent, p,
      properties_subset hFiles hBuild hRest hParent hAncestor p hMem, hName⟩
  · rintro ⟨super, parent, hSuper, hParent, hHas⟩
    have hStep : index.Inherits c.fqn super := by
      rw [Inherits, superType?, hFound]
      exact hSuper
    exact ⟨super, parent, .single hStep, hParent, hHas⟩

/-- The class of a super chain that owns a property is the one that introduces it. -/
theorem owner_eq_iff (hFiles : IsLoaded files) (hBuild : build files .strict = .ok index)
    (hFound : index.class? c.fqn = some c) {p : ResolvedProperty} (hMem : p ∈ c.properties)
    {other : ResolvedClass} (hOther : index.class? other.fqn = some other) :
    p.owner = other.fqn ↔ index.Introduces other p := by
  obtain ⟨_, owner, hOwner, hIntroduces⟩ :=
    introduces_owner hFiles hBuild (resolves_of_class? hFiles hBuild hFound) hMem
  constructor
  · intro hSame
    rw [hSame, hOther] at hOwner
    cases hOwner
    exact hIntroduces
  · rintro ⟨hHas, hNew⟩
    obtain ⟨hReach, _⟩ :=
      introduces_owner hFiles hBuild (resolves_of_class? hFiles hBuild hOther) hHas
    rcases ReflTransGen.cases_head hReach with hSame | ⟨next, hFirst, hRest⟩
    · exact hSame.symm
    · -- A proper ancestor that has the property hands it to the super type.
      obtain ⟨_, parent, _, hParent, _⟩ := Inherits.kind hFiles hBuild hFirst
      have hSuper : other.superType = some next := by
        simpa [Inherits, superType?, hOther] using hFirst
      have hHanded := properties_subset hFiles hBuild hRest hParent hOwner p hIntroduces.1
      exact (hNew next parent hSuper hParent p hHanded rfl).elim

/-- What a class of a strict index is assembled from. -/
theorem exists_assembled (hFiles : IsLoaded files) (hBuild : build files .strict = .ok index)
    (hResolves : Resolves files c.fqn c) :
    ∃ file d body declared parent, findClass files c.fqn = .ok (file, d, body) ∧
      ClassBody.resolveOwn files file d [] body.properties = .ok declared ∧
      c = body.assemble d parent declared ∧
      (∀ p, parent = some p → index.class? p.fqn = some p) := by
  cases hResolves with
  | base hFound _ hResolved =>
      obtain ⟨declared, hDeclared, _, _, hSame⟩ := ClassBody.resolve_eq_ok hResolved
      exact ⟨_, _, _, declared, none, hFound, hDeclared, hSame, nofun⟩
  | @sub _ super _ _ _ parent _ hFound _ hParent hResolved =>
      obtain ⟨declared, hDeclared, _, _, hSame⟩ := ClassBody.resolve_eq_ok hResolved
      refine ⟨_, _, _, declared, some parent, hFound, hDeclared, hSame, ?_⟩
      rintro _ ⟨⟩
      rw [hFiles.fqn_of_resolves hParent]
      exact class?_of_resolves hFiles hBuild hParent

open scoped Classical in
/-- The properties of a class of a strict index are its declared ones in their order, then the
identifier and the time stamp that the system adds where no ancestor has them, then those of its
super type. Their names differ from each other. Each of them is owned by the one class of the super
chain that introduces it, and the time stamp is there exactly for transactions and events. -/
theorem properties_of_class (hFiles : IsLoaded files) (hBuild : build files .strict = .ok index)
    (hMem : c ∈ index.classes) :
    (∃ file d body declared inherited,
      findClass files c.fqn = .ok (file, d, body) ∧
      declared.map (·.property) = body.properties ∧
      (∀ q ∈ declared, file.resolveProperty files c.fqn q.property = .ok q) ∧
      (c.superType = none ∧ inherited = [] ∨ ∃ super parent, c.superType = some super ∧
        index.class? super = some parent ∧ inherited = parent.properties) ∧
      c.properties = declared ++
        (if body.identified = some .system ∧ ¬ index.AncestorHas c identifierField then
          [ClassBody.systemProperty identifierField .string c.fqn] else []) ++
        (if c.kind.isTimestamped = true ∧ ¬ index.AncestorHas c timestampField then
          [ClassBody.systemProperty timestampField .dateTime c.fqn] else []) ++
        inherited) ∧
      (c.properties.map (·.name)).Nodup ∧
      (∀ p ∈ c.properties, p.owner ∈ index.superChain c.fqn ∧
        ∀ owner, index.class? owner.fqn = some owner → owner.fqn ∈ index.superChain c.fqn →
          (p.owner = owner.fqn ↔ index.Introduces owner p)) ∧
      ((∃ p ∈ c.properties, p.name = timestampField) ↔
        c.kind = .transaction ∨ c.kind = .event) := by
  have hFound := class?_of_mem hBuild hMem
  have hResolves := resolves_of_mem hFiles hBuild hMem
  have hAcyclic := acyclic_of_build hFiles hBuild
  refine ⟨?_, hResolves.nodup_properties hFiles, ?_, ?_⟩
  · obtain ⟨file, d, body, declared, parent, hDeclaration, hDeclared, hSame, hParent⟩ :=
      exists_assembled hFiles hBuild hResolves
    have hName : d.fqn = c.fqn := by rw [hSame]; rfl
    have hSuper : c.superType = parent.map (·.fqn) := by rw [hSame]; rfl
    obtain ⟨hEach, _⟩ := ClassBody.resolveOwn_eq_ok hDeclared
    have hInherited : c.superType = none ∧ ClassBody.inheritedFrom parent = [] ∨
        ∃ super p, c.superType = some super ∧ index.class? super = some p ∧
          ClassBody.inheritedFrom parent = p.properties := by
      cases parent with
      | none => exact .inl ⟨hSuper, rfl⟩
      | some p => exact .inr ⟨p.fqn, p, hSuper, hParent p rfl, rfl⟩
    refine ⟨file, d, body, declared, ClassBody.inheritedFrom parent, hDeclaration,
      ClassBody.map_property_of_resolveOwn hDeclared, ?_, hInherited, ?_⟩
    · intro q hQ
      rw [← hName]
      exact ClassBody.resolveProperty_of_resolveOwn hDeclared hQ
    · have hHas (name : String) : (∃ p ∈ ClassBody.inheritedFrom parent, p.name = name) ↔
          index.AncestorHas c name := by
        rw [ancestorHas_iff hFiles hBuild hFound]
        rcases hInherited with ⟨hNone, hEmpty⟩ | ⟨super, p, hSome, hIndexed, hSame⟩
        · simp [hNone, hEmpty]
        · simp [hSome, hIndexed, hSame]
      have hKind : c.kind = body.kind := by rw [hSame]; rfl
      have hIdentifier : body.identified = some .system ∧ ¬ index.AncestorHas c identifierField ↔
          body.identified = some .system ∧
            ¬ ∃ p ∈ ClassBody.inheritedFrom parent, p.name = identifierField := by
        rw [hHas]
      have hTimestamp : c.kind.isTimestamped = true ∧ ¬ index.AncestorHas c timestampField ↔
          body.kind.isTimestamped = true ∧
            ¬ ∃ p ∈ ClassBody.inheritedFrom parent, p.name = timestampField := by
        rw [hHas, hKind]
      rw [List.append_assoc declared, ← ClassBody.systemProperties_eq hIdentifier hTimestamp,
        ← hName, hSame]
      rfl
  · intro p hP
    obtain ⟨hReach, _⟩ := introduces_owner hFiles hBuild hResolves hP
    exact ⟨hAcyclic.mem_superChain.mpr hReach,
      fun owner hOwner _ => owner_eq_iff hFiles hBuild hFound hP hOwner⟩
  · rw [hResolves.timestamp_iff hFiles]
    cases c.kind <;> decide

/-- Tracked parcels have a route of their own, the identifier of the system, and the weight of all
parcels, in this order. The weight is introduced by parcels. -/
theorem properties_of_tracked : IsLoaded Post.files ∧
    build Post.files .strict = .ok Post.index ∧ Post.tracked ∈ Post.index.classes ∧
    Post.tracked.properties.map (fun p => (p.name, p.owner)) =
      [("route", "post@1.0.0.Tracked"), (identifierField, "post@1.0.0.Tracked"),
       ("weight", "post@1.0.0.Parcel")] ∧
    (Post.tracked.properties.map (·.name)).Nodup ∧
    Post.weight.owner ∈ Post.index.superChain Post.tracked.fqn ∧
    Post.index.Introduces Post.parcel Post.weight ∧
    ¬ ∃ p ∈ Post.tracked.properties, p.name = timestampField := by
  obtain ⟨_, hNames, hOwners, hTimestamp⟩ :=
    properties_of_class Post.isLoaded_files Post.build_files Post.tracked_mem
  have hWeight : Post.weight ∈ Post.tracked.properties := by
    simp [Post.tracked, ResolvedClass.concept]
  have hParcel : Post.parcel.fqn ∈ Post.index.superChain Post.tracked.fqn := by decide
  obtain ⟨hOwner, hIntroduced⟩ := hOwners Post.weight hWeight
  refine ⟨Post.isLoaded_files, Post.build_files, Post.tracked_mem, rfl, hNames, hOwner,
    (hIntroduced Post.parcel rfl hParcel).mp rfl, fun hTimed => ?_⟩
  rcases hTimestamp.mp hTimed with hKind | hKind <;> cases hKind

end TypeIndex

end DomainModels
