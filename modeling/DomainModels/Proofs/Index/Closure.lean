import DomainModels.Proofs.Index.Properties

/-!
Which indexes are closed.

A build first comes to an index with all classes that can be resolved, and with every super type of
theirs. Then it checks the relationships of each class and of each map. A strict build is refused
where one of them points to a class without an identifier. A lenient build leaves out what declares
such a relationship, but what has been resolved from a class that is left out stays.
-/

namespace DomainModels

open ModelFiles (Resolves IsLoaded)

namespace TypeIndex

variable {files : ModelFiles} {mode : BuildMode} {index whole : TypeIndex}

/-- Where a type points to an indexed class, that class is identified. -/
def PointsToIdentified (index : TypeIndex) (type : ResolvedType) : Prop :=
  ∀ target c, type = .relationship target → index.class? target = some c → c.isIdentified = true

/-- An index whose classes extend indexed classes and whose relationships, declared or inherited,
point to identified ones. -/
structure IsClosed (index : TypeIndex) : Prop where
  superTypes : ∀ c ∈ index.classes, ∀ super, c.superType = some super →
    (index.class? super).isSome = true
  properties : ∀ c ∈ index.classes, ∀ p ∈ c.properties, index.PointsToIdentified p.type
  maps : ∀ m ∈ index.maps, index.PointsToIdentified m.value.type

/-- A class or a map of the name declares a relationship to a class without an identifier. -/
def PointsAstray (index : TypeIndex) (name : String) : Prop :=
  (∃ c ∈ index.classes, c.fqn = name ∧
    ∃ p ∈ c.ownProperties, ¬ index.PointsToIdentified p.type) ∨
  ∃ m ∈ index.maps, m.fqn = name ∧ ¬ index.PointsToIdentified m.value.type

/-! ## Faults -/

theorem pointerFault?_eq_none {p : ResolvedProperty} :
    index.pointerFault? p = none ↔ index.PointsToIdentified p.type := by
  unfold pointerFault? PointsToIdentified
  cases hType : p.type with
  | relationship target =>
      have hSame : (∀ other c, ResolvedType.relationship target = .relationship other →
          index.class? other = some c → c.isIdentified = true) ↔
          ∀ c, index.class? target = some c → c.isIdentified = true :=
        ⟨fun h c => h target c rfl,
          fun h _ c hOther => (ResolvedType.relationship.inj hOther) ▸ h c⟩
      rw [hSame]
      cases hFound : index.class? target with
      | none => simp [hFound]
      | some c => cases hId : c.isIdentified <;> simp [hFound, hId]
  | value type => simp
  | scalar fqn type => simp
  | declared fqn default => simp

/-- The faults are found under the names of what points astray. -/
theorem mem_pointerFaults {name : String} :
    name ∈ index.pointerFaults.map (·.1) ↔ index.PointsAstray name := by
  have hFault (p : ResolvedProperty) :
      (∃ f, index.pointerFault? p = some f) ↔ ¬ index.PointsToIdentified p.type := by
    rw [← pointerFault?_eq_none, ← Option.isSome_iff_exists, Option.isSome_iff_ne_none]
  simp only [pointerFaults, List.mem_map, List.mem_mergeSort, List.mem_append, List.mem_flatMap,
    List.mem_filterMap, Option.map_eq_some_iff, PointsAstray, ← hFault]
  constructor
  · rintro ⟨_, ⟨c, hMem, p, hOwn, f, hF, rfl⟩ | ⟨m, hMem, f, hF, rfl⟩, rfl⟩
    · exact .inl ⟨c, hMem, rfl, p, hOwn, f, hF⟩
    · exact .inr ⟨m, hMem, rfl, f, hF⟩
  · rintro (⟨c, hMem, rfl, p, hOwn, f, hF⟩ | ⟨m, hMem, rfl, f, hF⟩)
    · exact ⟨_, .inl ⟨c, hMem, p, hOwn, f, hF, rfl⟩, rfl⟩
    · exact ⟨_, .inr ⟨m, hMem, f, hF, rfl⟩, rfl⟩

/-- In both modes the check of the relationships leaves out what points astray. Strictly, this is
nothing. -/
theorem checkPointers_eq_ok (hChecked : checkPointers mode whole = .ok index) :
    index = whole.without (whole.pointerFaults.map (·.1)) ∧
      (mode = .strict → ∀ name, ¬ whole.PointsAstray name) := by
  cases mode with
  | strict =>
      obtain ⟨hNone, rfl⟩ := checkPointers_strict hChecked
      refine ⟨?_, fun _ name hAstray => ?_⟩
      · have hLenient := checkPointers_of_no_faults .lenient hNone
        rw [checkPointers_lenient] at hLenient
        exact (Except.ok.inj hLenient).symm
      · rw [← mem_pointerFaults, hNone] at hAstray
        cases hAstray
  | lenient =>
      rw [checkPointers_lenient] at hChecked
      exact ⟨(Except.ok.inj hChecked).symm, nofun⟩

/-! ## Leaving out -/

theorem class?_without {names : List String} {fqn : String} {c : ResolvedClass} :
    (whole.without names).class? fqn = some c ↔ whole.class? fqn = some c ∧ fqn ∉ names := by
  have hFilter : (whole.without names).class? fqn =
      whole.classes.find? fun c => decide (c.fqn = fqn) && !names.contains fqn := by
    simp only [class?, without, List.find?_filter]
    congr 1
    funext d
    by_cases hName : d.fqn = fqn
    · subst hName
      simp
    · simp [hName]
  rw [hFilter]
  by_cases hOut : fqn ∈ names
  · have hNone : whole.classes.find? (fun _ => false) = none := by simp
    simp [hOut, hNone]
  · simp [hOut, class?]

/-- What points to identified classes does so when classes are left out. -/
theorem PointsToIdentified.without {type : ResolvedType} (names : List String)
    (hPoints : whole.PointsToIdentified type) : (whole.without names).PointsToIdentified type :=
  fun target c hType hFound => hPoints target c hType (class?_without.mp hFound).1

end TypeIndex

/-- A property of a resolved class is an own property of a resolved class: of the class itself, or
of one that the super type has the property from. -/
theorem ModelFiles.Resolves.exists_owner {files : ModelFiles} (hFiles : IsLoaded files)
    {fqn : String} {c : ResolvedClass} (hResolves : Resolves files fqn c) {p : ResolvedProperty}
    (hMem : p ∈ c.properties) :
    (∃ owner, Resolves files p.owner owner ∧ p ∈ owner.ownProperties) ∧
      (p.owner = fqn ∨ ∃ super parent, c.superType = some super ∧ Resolves files super parent ∧
        p ∈ parent.properties) := by
  have hOwn {fqn : String} {c : ResolvedClass} (hResolves : Resolves files fqn c)
      (hMem : p ∈ c.properties) (hOwner : p.owner = c.fqn) :
      (∃ owner, Resolves files p.owner owner ∧ p ∈ owner.ownProperties) ∧ p.owner = fqn := by
    have hName : p.owner = fqn := hOwner.trans (hFiles.fqn_of_resolves hResolves)
    exact ⟨⟨c, hName ▸ hResolves, List.mem_filter.mpr ⟨hMem, by simpa using hOwner⟩⟩, hName⟩
  induction hResolves with
  | @base fqn _ d body c hFound hSuper hResolved =>
      have hResolves : Resolves files fqn c := .base hFound hSuper hResolved
      obtain ⟨declared, hDeclared, _, _, rfl⟩ := ClassBody.resolve_eq_ok hResolved
      have hOwner : p.owner = d.fqn := by
        refine ClassBody.owner_of_own hDeclared
          (?_ : p ∈ declared ++ body.systemProperties d.fqn (ClassBody.inheritedFrom none))
        simpa [ClassBody.assemble, ClassBody.inheritedFrom] using hMem
      exact (hOwn hResolves hMem hOwner).imp_right .inl
  | @sub fqn super _ d body parent c hFound hSuper hParent hResolved ih =>
      have hResolves : Resolves files fqn c := .sub hFound hSuper hParent hResolved
      obtain ⟨declared, hDeclared, _, _, rfl⟩ := ClassBody.resolve_eq_ok hResolved
      rcases List.mem_append.mp hMem with hDeclaredMem | hInherited
      · exact (hOwn hResolves hMem (ClassBody.owner_of_own hDeclared hDeclaredMem)).imp_right .inl
      · refine ⟨(ih hInherited).1, .inr ⟨super, parent, ?_, hParent, hInherited⟩⟩
        rw [← hFiles.fqn_of_resolves hParent]
        rfl

/-! ## After the check -/

namespace TypeIndex

variable {files : ModelFiles} {mode : BuildMode} {index : TypeIndex}

/-- What the check of the relationships makes of an index with everything that can be resolved: the
index without what points astray. -/
structure IsChecked (files : ModelFiles) (mode : BuildMode) (whole index : TypeIndex) : Prop where
  isWhole : IsWhole files whole
  classes : ∀ fqn c, index.class? fqn = some c ↔
    whole.class? fqn = some c ∧ ¬ whole.PointsAstray fqn
  maps : ∀ m, m ∈ index.maps ↔ m ∈ whole.maps ∧ ¬ whole.PointsAstray m.fqn
  pointers : ∀ type, whole.PointsToIdentified type → index.PointsToIdentified type
  strict : mode = .strict → ∀ name, ¬ whole.PointsAstray name

theorem IsWhole.isChecked {whole : TypeIndex} (hWhole : IsWhole files whole)
    (hPointers : checkPointers mode whole = .ok index) : IsChecked files mode whole index := by
  obtain ⟨rfl, hStrict⟩ := checkPointers_eq_ok hPointers
  refine ⟨hWhole, fun fqn c => ?_, fun m => ?_, fun type h => h.without _, hStrict⟩
  · rw [class?_without, mem_pointerFaults]
  · rw [← mem_pointerFaults]
    simp [without]

theorem exists_isChecked (hFiles : IsLoaded files) (hBuild : build files mode = .ok index) :
    ∃ whole, IsChecked files mode whole index := by
  obtain ⟨whole, hWhole, hPointers⟩ := exists_isWhole hFiles hBuild
  exact ⟨whole, hWhole.isChecked hPointers⟩

variable {whole : TypeIndex}

/-- What an indexed class has from an indexed class points to identified classes, since the owner
was not left out. -/
theorem IsChecked.pointsToIdentified (hChecked : IsChecked files mode whole index)
    (hFiles : IsLoaded files) {fqn : String} {c : ResolvedClass} (hResolves : Resolves files fqn c)
    {p : ResolvedProperty} (hMem : p ∈ c.properties)
    (hOwner : (index.class? p.owner).isSome = true) : index.PointsToIdentified p.type := by
  obtain ⟨⟨owner, hOwnerResolves, hOwn⟩, _⟩ := hResolves.exists_owner hFiles hMem
  obtain ⟨found, hFound⟩ := Option.isSome_iff_exists.mp hOwner
  have hOwnerMem : owner ∈ whole.classes :=
    (mem_of_class? ((hChecked.isWhole.class?_eq_some hFiles).mpr hOwnerResolves)).1
  refine hChecked.pointers _ (Classical.byContradiction fun hAstray => ?_)
  exact ((hChecked.classes _ _).mp hFound).2
    (.inl ⟨owner, hOwnerMem, hFiles.fqn_of_resolves hOwnerResolves, p, hOwn, hAstray⟩)

theorem IsChecked.pointsToIdentified_of_map (hChecked : IsChecked files mode whole index)
    {m : ResolvedMap} (hMem : m ∈ index.maps) : index.PointsToIdentified m.value.type := by
  obtain ⟨hWholeMem, hFine⟩ := (hChecked.maps m).mp hMem
  refine hChecked.pointers _ (Classical.byContradiction fun hAstray => hFine ?_)
  exact .inr ⟨m, hWholeMem, rfl, hAstray⟩

/-- A super type is indexed, unless it was left out. -/
theorem IsChecked.superType (hChecked : IsChecked files mode whole index) (hFiles : IsLoaded files)
    {fqn super : String} {c : ResolvedClass} (hResolves : Resolves files fqn c)
    (hSuper : c.superType = some super) :
    (index.class? super).isSome = true ∨ whole.PointsAstray super := by
  obtain ⟨parent, hParent⟩ := hResolves.needs (hResolves.needs_superType hFiles hSuper)
  refine (em _).symm.imp_left fun hFine => ?_
  rw [(hChecked.classes super parent).mpr
    ⟨(hChecked.isWhole.class?_eq_some hFiles).mpr hParent, hFine⟩]
  rfl

/-- Where all super types are indexed, the owners of all properties are. -/
theorem IsChecked.isSome_owner (hChecked : IsChecked files mode whole index)
    (hFiles : IsLoaded files)
    (hSupers : ∀ c ∈ index.classes, ∀ super, c.superType = some super →
      (index.class? super).isSome = true)
    {fqn : String} {c : ResolvedClass} (hResolves : Resolves files fqn c)
    (hFound : index.class? fqn = some c) {p : ResolvedProperty} (hMem : p ∈ c.properties) :
    (index.class? p.owner).isSome = true := by
  induction hResolves with
  | @base fqn _ d body c hClass hNone hResolved =>
      rcases (Resolves.exists_owner hFiles (.base hClass hNone hResolved) hMem).2 with
        hOwner | ⟨super, parent, hSuper, _⟩
      · rw [hOwner, hFound]
        rfl
      · obtain ⟨_, _, _, _, rfl⟩ := ClassBody.resolve_eq_ok hResolved
        cases hSuper
  | @sub fqn super _ d body parent c hClass hSuper hParent hResolved ih =>
      have hResolves : Resolves files fqn c := .sub hClass hSuper hParent hResolved
      rcases (hResolves.exists_owner hFiles hMem).2 with hOwner | ⟨other, q, hOther, hQ, hInherited⟩
      · rw [hOwner, hFound]
        rfl
      · have hNeeds := hResolves.needs_superType hFiles hOther
        obtain rfl : super = other := ModelFiles.Needs.unique ⟨_, _, _, hClass, hSuper⟩ hNeeds
        obtain rfl := hParent.unique hQ
        obtain ⟨found, hIndexed⟩ := Option.isSome_iff_exists.mp
          (hSupers c (mem_of_class? hFound).1 super hOther)
        have hSame := (hChecked.isWhole.class?_eq_some hFiles).mp
          ((hChecked.classes _ _).mp hIndexed).1
        obtain rfl := hSame.unique hParent
        exact ih hIndexed hInherited

/-- An index is closed as soon as the super types of its classes are indexed. -/
theorem isClosed_iff (hFiles : IsLoaded files) (hBuild : build files mode = .ok index) :
    index.IsClosed ↔ ∀ c ∈ index.classes, ∀ super, c.superType = some super →
      (index.class? super).isSome = true := by
  obtain ⟨whole, hChecked⟩ := exists_isChecked hFiles hBuild
  refine ⟨fun h => h.superTypes, fun hSupers => ⟨hSupers, fun c hMem p hP => ?_,
    fun m hMem => hChecked.pointsToIdentified_of_map hMem⟩⟩
  have hResolves := resolves_of_mem hFiles hBuild hMem
  exact hChecked.pointsToIdentified hFiles hResolves hP
    (hChecked.isSome_owner hFiles hSupers hResolves (class?_of_mem hBuild hMem) hP)

theorem isClosed_of_strict (hFiles : IsLoaded files) (hBuild : build files .strict = .ok index) :
    index.IsClosed := by
  obtain ⟨whole, hChecked⟩ := exists_isChecked hFiles hBuild
  refine (isClosed_iff hFiles hBuild).mpr fun c hMem super hSuper => ?_
  exact (hChecked.superType hFiles (resolves_of_mem hFiles hBuild hMem) hSuper).resolve_right
    (hChecked.strict rfl super)

/-- A build leaves out the classes and the maps that declare a relationship to a class without an
identifier, and it has all others that can be resolved; a strict build leaves out nothing and its
index is closed. In both modes the maps that stay point to identified classes, and so does every
property whose owner is indexed. A super type that is not indexed was left out for a relationship of
its own; unless there is such a super type, the index is closed. -/
theorem closure_of_build (hFiles : IsLoaded files) (hBuild : build files mode = .ok index) :
    ∃ whole : TypeIndex,
      (∀ fqn c, whole.class? fqn = some c ↔ Resolves files fqn c) ∧
      (∀ m ∈ whole.maps, ResolvesMap files m) ∧
      (∀ fqn c, index.class? fqn = some c ↔
        whole.class? fqn = some c ∧ ¬ whole.PointsAstray fqn) ∧
      (∀ m, m ∈ index.maps ↔ m ∈ whole.maps ∧ ¬ whole.PointsAstray m.fqn) ∧
      (mode = .strict → index.IsClosed) ∧
      (∀ c ∈ index.classes, ∀ super, c.superType = some super →
        (index.class? super).isSome = true ∨ whole.PointsAstray super) ∧
      (∀ c ∈ index.classes, ∀ p ∈ c.properties, (index.class? p.owner).isSome = true →
        index.PointsToIdentified p.type) ∧
      (∀ m ∈ index.maps, index.PointsToIdentified m.value.type) ∧
      (index.IsClosed ↔ ∀ c ∈ index.classes, ∀ super, c.superType = some super →
        (index.class? super).isSome = true) := by
  obtain ⟨whole, hChecked⟩ := exists_isChecked hFiles hBuild
  have hResolves {c : ResolvedClass} (hMem : c ∈ index.classes) : Resolves files c.fqn c :=
    resolves_of_mem hFiles hBuild hMem
  refine ⟨whole, fun fqn c => hChecked.isWhole.class?_eq_some hFiles, hChecked.isWhole.maps,
    hChecked.classes, hChecked.maps, ?_, ?_, ?_, ?_, isClosed_iff hFiles hBuild⟩
  · rintro rfl
    exact isClosed_of_strict hFiles hBuild
  · exact fun c hMem super hSuper => hChecked.superType hFiles (hResolves hMem) hSuper
  · exact fun c hMem p hP hOwner => hChecked.pointsToIdentified hFiles (hResolves hMem) hP hOwner
  · exact fun m hMem => hChecked.pointsToIdentified_of_map hMem

end TypeIndex

/-! ## A model of staff

A class declares a relationship to a class without an identifier, and another class extends it.
-/

namespace Staff

def space : String := "staff@1.0.0"

/-- The syntax tree of the model. -/
def model : Metamodel.Model :=
  { Metamodel.Model.empty space with
    declarations :=
      [⟨"Address", .classBody .concept false none none [], [], none⟩,
       ⟨"Person", .classBody .concept false none none
         [⟨"home", .typed (.relationship ⟨"Address", none⟩) false false, [], none⟩], [], none⟩,
       ⟨"Employee", .classBody .concept false (some ⟨"Person", none⟩) none [], [], none⟩] }

/-- The relationship to an address. -/
def homeProperty : Property := ⟨"home", .relationship ⟨"Address", none⟩, false, false, [], none⟩

/-- The model file. -/
def file : ModelFile where
  space := space
  version := ⟨"staff", some ⟨1, 0, 0, "", ""⟩⟩
  fileName := none
  checksum := ModelFile.checksumOf model
  model := model
  declarations :=
    [⟨"Address", space, .classBody ⟨.concept, false, none, none, []⟩, [], none⟩,
     ⟨"Person", space, .classBody ⟨.concept, false, none, none, [homeProperty]⟩, [], none⟩,
     ⟨"Employee", space, .classBody ⟨.concept, false, some ⟨"Person", none⟩, none, []⟩, [], none⟩]
  explicitImports := []
  wildcardImports := []
  decorators := []

def files : ModelFiles := [(rootNamespace, Root.file), (space, file)]

def address : ResolvedClass := .concept space "Address" none none []

def home : ResolvedProperty := ⟨homeProperty, qualify space "Person", .relationship address.fqn⟩

def person : ResolvedClass := .concept space "Person" none none [home]

def employee : ResolvedClass := .concept space "Employee" (some "Person") none [home]

/-- The index of a lenient build, which has employees and no persons. -/
def index : TypeIndex := ⟨Root.index.classes ++ [address, employee], []⟩

theorem isLoaded_files : IsLoaded files :=
  ModelFiles.isLoaded_root.put (show ModelFile.ofModel model none [] = .ok file from rfl)
    (by decide)

theorem build_files : TypeIndex.build files .lenient = .ok index := by
  let whole : TypeIndex := ⟨Root.index.classes ++ [address, person, employee], []⟩
  have hEach : TypeIndex.resolveEach files .lenient [address.fqn, person.fqn, employee.fqn]
      Root.findings = .ok [address, person, employee] := by
    refine Root.resolveEach_cons_sub rfl rfl rfl rfl rfl ?_
    refine Root.resolveEach_cons_sub rfl rfl rfl rfl rfl ?_
    exact Root.resolveEach_cons_sub rfl rfl rfl rfl rfl rfl
  have hFaults : whole.pointerFaults.map (·.1) = [person.fqn] := by
    have hNone : (whole.maps.filterMap fun m =>
        (whole.pointerFault? m.value).map fun f => (m.fqn, f)) = [] := rfl
    have hOne : (whole.classes.flatMap fun c => c.ownProperties.filterMap fun p =>
        (whole.pointerFault? p).map fun f => (c.fqn, f)) =
        [(person.fqn, .illegal (.unidentifiedTarget "home" address.fqn) ⟨none, none⟩)] := rfl
    simp only [TypeIndex.pointerFaults, hOne, hNone, List.append_nil, List.mergeSort_singleton,
      List.map_cons, List.map_nil]
  have hLeftOut : TypeIndex.checkPointers .lenient whole = .ok index := by
    rw [TypeIndex.checkPointers_lenient, hFaults]
    rfl
  exact (Root.build_of_rest rfl rfl rfl hEach rfl rfl rfl).trans hLeftOut

end Staff

namespace TypeIndex

/-- The index of the staff is not closed: the super type of the employees is not indexed, and the
relationship that they inherit points to addresses, which have no identifier. -/
theorem not_isClosed_staff : IsLoaded Staff.files ∧
    build Staff.files .lenient = .ok Staff.index ∧ Staff.employee ∈ Staff.index.classes ∧
      Staff.employee.superType = some Staff.person.fqn ∧
      Staff.index.class? Staff.person.fqn = none ∧ Staff.home ∈ Staff.employee.properties ∧
      ¬ Staff.index.PointsToIdentified Staff.home.type ∧ ¬ Staff.index.IsClosed := by
  have hMem : Staff.employee ∈ Staff.index.classes := by
    simp [Staff.index]
  have hAstray : ¬ Staff.index.PointsToIdentified Staff.home.type := fun hPoints =>
    absurd (hPoints _ Staff.address rfl rfl) (by decide)
  refine ⟨Staff.isLoaded_files, Staff.build_files, hMem, rfl, rfl, List.mem_cons_self, hAstray, ?_⟩
  exact fun hClosed => hAstray (hClosed.properties _ hMem _ List.mem_cons_self)

/-- The super type of the employees was left out for the relationship that it declares. -/
theorem closure_of_staff : IsLoaded Staff.files ∧
    build Staff.files .lenient = .ok Staff.index ∧ ∃ whole : TypeIndex,
      (∀ fqn c, whole.class? fqn = some c ↔ Resolves Staff.files fqn c) ∧
        whole.class? Staff.employee.fqn = some Staff.employee ∧
        ¬ whole.PointsAstray Staff.employee.fqn ∧ whole.PointsAstray Staff.person.fqn := by
  obtain ⟨whole, hClasses, _, hIndexed, _, _, hSupers, _⟩ :=
    closure_of_build Staff.isLoaded_files Staff.build_files
  have hMem : Staff.employee ∈ Staff.index.classes := by
    simp [Staff.index]
  obtain ⟨hEmployee, hFine⟩ := (hIndexed Staff.employee.fqn Staff.employee).mp rfl
  refine ⟨Staff.isLoaded_files, Staff.build_files, whole, hClasses, hEmployee, hFine, ?_⟩
  exact (hSupers _ hMem Staff.person.fqn rfl).resolve_left (by decide)

end TypeIndex

end DomainModels
