import DomainModels.Proofs.Index.Properties
import DomainModels.Proofs.Schema.Defaults
import DomainModels.Registry.Basic

/-!
The types of properties, as they are resolved.

What a property holds is a primitive type that some declaration writes, a class, a map or an
enumeration, or a pointer to a class. A default of an enumeration is one of its values.
-/

namespace DomainModels

open ModelFiles (IsLoaded Resolves)

namespace ModelFile

variable {files : ModelFiles} {file : ModelFile} {p : Property} {type : ResolvedType}

/-- What a property is resolved to: the type that is written; or the scalar, the enumeration with a
default of its own, or the other declaration that is referred to; or the class that is pointed
to. -/
theorem resolveType_eq_ok (hType : file.resolveType files p = .ok type) :
    (∃ v, p.type = .value v ∧ type = .value v) ∨
      (∃ target v, ModelFiles.body? files target = some (.scalarBody v) ∧
        type = .scalar target v) ∨
      (∃ target default, type = .declared target default ∧
        ∀ values name, ModelFiles.body? files target = some (.enumBody values) →
          default = some name → hasEnumValue values name = true) ∨
      ∃ target body, ModelFiles.body? files target = some (.classBody body) ∧
        type = .relationship target := by
  unfold resolveType at hType
  split at hType
  · rename_i v hWritten
    cases hType
    exact .inl ⟨v, hWritten, rfl⟩
  · rename_i default _
    simp only [Outcome.bind_eq_ok] at hType
    obtain ⟨target, _, hType⟩ := hType
    refine .inr ?_
    split at hType
    · rename_i v hScalar
      rw [Outcome.pure_eq_ok] at hType
      exact .inl ⟨target, v, hScalar, hType.symm⟩
    · rename_i values hValues
      refine .inr (.inl ⟨target, default, ?_⟩)
      split at hType
      · rename_i name
        split at hType
        · simp at hType
        · rename_i hHas
          rw [Outcome.pure_eq_ok] at hType
          refine ⟨hType.symm, ?_⟩
          rintro others _ hOthers ⟨⟩
          rw [hValues] at hOthers
          cases hOthers
          simpa using hHas
      · rename_i hNone
        rw [Outcome.pure_eq_ok] at hType
        exact ⟨hType.symm, fun _ name _ hSome => (hNone name hSome).elim⟩
    · rename_i hNoEnum
      rw [Outcome.pure_eq_ok] at hType
      exact .inr (.inl ⟨target, default, hType.symm,
        fun values _ hValues => (hNoEnum values hValues).elim⟩)
  · simp only [Outcome.bind_eq_ok] at hType
    obtain ⟨target, _, hType⟩ := hType
    split at hType
    · rename_i body hBody
      rw [Outcome.pure_eq_ok] at hType
      exact .inr (.inr (.inr ⟨target, body, hBody, hType.symm⟩))
    · simp at hType

/-- A primitive type is written at the property, or at the scalar that it refers to. -/
theorem resolveType_value (hType : file.resolveType files p = .ok type) {v : ValueType}
    (hValue : type.value? = some v) :
    p.type.value? = some v ∨ ∃ target, ModelFiles.body? files target = some (.scalarBody v) := by
  rcases resolveType_eq_ok hType with ⟨w, hWritten, rfl⟩ | ⟨target, w, hScalar, rfl⟩ |
    ⟨target, default, rfl, _⟩ | ⟨target, body, _, rfl⟩
  · cases hValue
    exact .inl (by rw [hWritten]; rfl)
  · cases hValue
    exact .inr ⟨target, hScalar⟩
  · cases hValue
  · cases hValue

/-- The default of an enumeration is one of its values. -/
theorem resolveType_declared {target name : String}
    (hType : file.resolveType files p = .ok (.declared target (some name)))
    {values : List EnumValue} (hBody : ModelFiles.body? files target = some (.enumBody values)) :
    hasEnumValue values name = true := by
  rcases resolveType_eq_ok hType with ⟨_, _, hSame⟩ | ⟨_, _, _, hSame⟩ |
    ⟨_, _, hSame, hValues⟩ | ⟨_, _, _, hSame⟩
  · cases hSame
  · cases hSame
  · cases hSame
    exact hValues values name hBody rfl
  · cases hSame

/-- A relationship points to a class. -/
theorem resolveType_relationship {target : String}
    (hType : file.resolveType files p = .ok (.relationship target)) :
    ∃ body, ModelFiles.body? files target = some (.classBody body) := by
  rcases resolveType_eq_ok hType with ⟨_, _, hSame⟩ | ⟨_, _, _, hSame⟩ |
    ⟨_, _, hSame, _⟩ | ⟨_, body, hBody, hSame⟩
  · cases hSame
  · cases hSame
  · cases hSame
  · cases hSame
    exact ⟨body, hBody⟩

end ModelFile

namespace ModelFiles

variable {files : ModelFiles} {fqn : String}

theorem body?_eq_some {body : DeclarationBody} :
    body? files fqn = some body ↔ ∃ file d, find? files fqn = some (file, d) ∧ d.body = body := by
  simp [body?]

/-- What is found under a name is declared. -/
theorem IsLoaded.mem_of_find? (hFiles : IsLoaded files) {file : ModelFile} {d : Declaration}
    (hFound : find? files fqn = some (file, d)) : (file, d) ∈ declarations files := by
  obtain ⟨hFile, hMem, _, _⟩ := hFiles.of_findDeclaration hFound
  exact mem_declarations hFile hMem

/-- A property that a class of the files declares, under another name than those of the system. -/
def IsDeclared (files : ModelFiles) (p : ResolvedProperty) : Prop :=
  isSystemName p.name = false ∧ ∃ file d body, (file, d) ∈ declarations files ∧
    d.body = .classBody body ∧ p.property ∈ body.properties ∧
    file.resolveType files p.property = .ok p.type

/-- A property that the system has added to a class. -/
def IsSupplied (p : ResolvedProperty) : Prop :=
  ∃ owner, p = ClassBody.systemProperty identifierField .string owner ∨
    p = ClassBody.systemProperty timestampField .dateTime owner

/-- What a class does not inherit is declared or supplied. -/
theorem IsLoaded.of_own (hFiles : IsLoaded files) {file : ModelFile} {d : Declaration}
    {body : ClassBody} (hFound : findClass files fqn = .ok (file, d, body))
    {declared inherited : List ResolvedProperty}
    (hDeclared : ClassBody.resolveOwn files file d [] body.properties = .ok declared)
    {p : ResolvedProperty} (hMem : p ∈ declared ++ body.systemProperties d.fqn inherited) :
    IsSupplied p ∨ IsDeclared files p := by
  obtain ⟨hFind, hClass⟩ := findClass_eq_ok.mp hFound
  have hBody : d.body = .classBody body := by
    unfold Declaration.class? at hClass
    split at hClass
    · rename_i hSame
      cases hClass
      exact hSame
    · cases hClass
  rcases List.mem_append.mp hMem with hMem | hMem
  · have hProperty : p.property ∈ body.properties := by
      rw [← ClassBody.map_property_of_resolveOwn hDeclared]
      exact List.mem_map_of_mem hMem
    have hResolved := ClassBody.resolveProperty_of_resolveOwn hDeclared hMem
    obtain ⟨_, hSystem, _⟩ := ClassBody.resolveOwn_eq_ok hDeclared
    refine .inr ⟨?_, file, d, body, hFiles.mem_of_find? hFind, hBody, hProperty,
      (ClassBody.resolveProperty_eq_ok hResolved).1⟩
    by_contra hName
    have hNone := (hFiles.rootClass_of_space hFound (hSystem p hMem (by simpa using hName))).2.2
    rw [hNone] at hProperty
    simp at hProperty
  · rcases ClassBody.mem_systemProperties.mp hMem with ⟨_, _, rfl⟩ | ⟨_, _, rfl⟩
    · exact .inl ⟨d.fqn, .inl rfl⟩
    · exact .inl ⟨d.fqn, .inr rfl⟩

/-- Every property of a resolved class is declared or supplied. -/
theorem Resolves.property_cases (hFiles : IsLoaded files) {c : ResolvedClass}
    (hResolves : Resolves files fqn c) {p : ResolvedProperty} (hMem : p ∈ c.properties) :
    IsSupplied p ∨ IsDeclared files p := by
  induction hResolves with
  | base hFound _ hResolved =>
      obtain ⟨_, hDeclared, _, _, rfl⟩ := ClassBody.resolve_eq_ok hResolved
      rcases List.mem_append.mp hMem with hOwn | hInherited
      · exact hFiles.of_own hFound hDeclared hOwn
      · simp [ClassBody.inheritedFrom] at hInherited
  | sub hFound _ _ hResolved ih =>
      obtain ⟨_, hDeclared, _, _, rfl⟩ := ClassBody.resolve_eq_ok hResolved
      rcases List.mem_append.mp hMem with hOwn | hInherited
      · exact hFiles.of_own hFound hDeclared hOwn
      · exact ih hInherited

/-- Names of the system are borne by what the system supplies. -/
theorem Resolves.isSupplied_of_isSystemName (hFiles : IsLoaded files) {c : ResolvedClass}
    (hResolves : Resolves files fqn c) {p : ResolvedProperty} (hMem : p ∈ c.properties)
    (hName : isSystemName p.name = true) : IsSupplied p := by
  rcases hResolves.property_cases hFiles hMem with hSupplied | ⟨hOther, _⟩
  · exact hSupplied
  · rw [hName] at hOther
    cases hOther

/-- The properties that can identify the instances of a class: single texts that are required. -/
structure IsIdentifying (p : ResolvedProperty) : Prop where
  text : ∃ validator default, p.type.value? = some (.string validator default)
  required : p.isOptional = false
  single : p.isArray = false

theorem isIdentifying_systemProperty (owner : String) :
    IsIdentifying (ClassBody.systemProperty identifierField .string owner) :=
  ⟨⟨none, none, rfl⟩, rfl, rfl⟩

/-- A field that was accepted as the identifier can be one. -/
theorem isIdentifying_of_checkIdentifier {file : ModelFile} {d : Declaration}
    {properties : List ResolvedProperty} {name : String}
    (hChecked : ClassBody.checkIdentifier file d properties name = .ok ()) :
    ∃ p ∈ properties, p.name = name ∧ IsIdentifying p := by
  unfold ClassBody.checkIdentifier at hChecked
  split at hChecked
  · simp at hChecked
  · rename_i p hFound
    obtain ⟨hMem, hName⟩ := Named.mem_of_find? hFound
    split at hChecked
    · rename_i validator default hText
      cases hOptional : p.isOptional with
      | true => simp [hOptional] at hChecked
      | false =>
          cases hArray : p.isArray with
          | true => simp [hOptional, hArray] at hChecked
          | false => exact ⟨p, hMem, hName, ⟨validator, default, hText⟩, hOptional, hArray⟩
    · simp at hChecked

/-- The identifier of a class is one of its properties, if this is so for its super type. -/
theorem exists_identifying_assemble {file : ModelFile} {d : Declaration} {body : ClassBody}
    {parent : Option ResolvedClass} {declared : List ResolvedProperty} {field : String}
    (hChecked : ∀ name, body.identified = some (.by name) →
      ClassBody.checkIdentifier file d (body.assemble d parent declared).properties name = .ok ())
    (hSystem : ∀ p ∈ ClassBody.inheritedFrom parent, p.name = identifierField → IsSupplied p)
    (hInherited : parent.bind (·.identifier) = some field →
      ∃ p ∈ ClassBody.inheritedFrom parent, p.name = field ∧ IsIdentifying p)
    (hField : (body.assemble d parent declared).identifier = some field) :
    ∃ p ∈ (body.assemble d parent declared).properties, p.name = field ∧ IsIdentifying p := by
  cases hIdentified : body.identified with
  | none =>
      have hParent : parent.bind (·.identifier) = some field := by
        simpa [ClassBody.assemble, hIdentified] using hField
      obtain ⟨p, hMem, hName, hIdentifying⟩ := hInherited hParent
      exact ⟨p, List.mem_append_right _ hMem, hName, hIdentifying⟩
  | some identified =>
      cases identified with
      | «by» name =>
          have hName : name = field := by
            simpa [ClassBody.assemble, hIdentified] using hField
          rw [← hName]
          exact isIdentifying_of_checkIdentifier (hChecked name hIdentified)
      | system =>
          have hName : identifierField = field := by
            simpa [ClassBody.assemble, hIdentified] using hField
          rw [← hName]
          by_cases hHas : ∃ p ∈ ClassBody.inheritedFrom parent, p.name = identifierField
          · obtain ⟨p, hMem, hP⟩ := hHas
            refine ⟨p, List.mem_append_right _ hMem, hP, ?_⟩
            obtain ⟨owner, rfl | rfl⟩ := hSystem p hMem hP
            · exact isIdentifying_systemProperty owner
            · exact absurd hP (by decide : timestampField ≠ identifierField)
          · have hAdded : ClassBody.systemProperty identifierField .string d.fqn ∈
                body.systemProperties d.fqn (ClassBody.inheritedFrom parent) :=
              ClassBody.mem_systemProperties.mpr (.inl ⟨hIdentified,
                fun p hMem hP => hHas ⟨p, hMem, hP⟩, rfl⟩)
            exact ⟨_, List.mem_append_left _ (List.mem_append_right _ hAdded), rfl,
              isIdentifying_systemProperty d.fqn⟩

theorem Resolves.exists_identifying (hFiles : IsLoaded files) {c : ResolvedClass}
    (hResolves : Resolves files fqn c) {field : String} (hField : c.identifier = some field) :
    ∃ p ∈ c.properties, p.name = field ∧ IsIdentifying p := by
  induction hResolves with
  | base _ _ hResolved =>
      obtain ⟨_, _, _, hChecked, rfl⟩ := ClassBody.resolve_eq_ok hResolved
      exact exists_identifying_assemble hChecked (by simp [ClassBody.inheritedFrom]) (by simp)
        hField
  | sub _ _ hParent hResolved ih =>
      obtain ⟨_, _, _, hChecked, rfl⟩ := ClassBody.resolve_eq_ok hResolved
      refine exists_identifying_assemble hChecked ?_ ?_ hField
      · intro p hMem hName
        refine hParent.isSupplied_of_isSystemName hFiles hMem ?_
        rw [hName]
        decide
      · exact fun hSame => ih hSame

/-- A primitive type of a property is plain, or is written in a declaration. -/
theorem Resolves.valueType_cases (hFiles : IsLoaded files) {c : ResolvedClass}
    (hResolves : Resolves files fqn c) {p : ResolvedProperty} (hMem : p ∈ c.properties)
    {v : ValueType} (hValue : p.type.value? = some v) :
    (∃ type, v = .plain type) ∨
      ∃ file d, (file, d) ∈ declarations files ∧ v ∈ d.body.valueTypes := by
  rcases hResolves.property_cases hFiles hMem with
    ⟨owner, rfl | rfl⟩ | ⟨_, file, d, body, hDeclared, hBody, hProperty, hType⟩
  · cases hValue
    exact .inl ⟨.string, rfl⟩
  · cases hValue
    exact .inl ⟨.dateTime, rfl⟩
  · right
    rcases ModelFile.resolveType_value hType hValue with hWritten | ⟨target, hScalar⟩
    · refine ⟨file, d, hDeclared, ?_⟩
      rw [hBody]
      exact List.mem_filterMap.mpr ⟨_, hProperty, hWritten⟩
    · obtain ⟨home, scalar, hFound, hSame⟩ := body?_eq_some.mp hScalar
      refine ⟨home, scalar, hFiles.mem_of_find? hFound, ?_⟩
      rw [hSame]
      exact List.mem_singleton_self v

/-- Every default that a file writes passes the check of its type. -/
theorem IsLoaded.hasCheckedDefault (hFiles : IsLoaded files) {file : ModelFile} {d : Declaration}
    (hMem : (file, d) ∈ declarations files) {v : ValueType} (hType : v ∈ d.body.valueTypes) :
    v.HasCheckedDefault := by
  obtain ⟨hFile, hDeclared⟩ := mem_declarations_iff.mp hMem
  obtain ⟨entry, hEntry, rfl⟩ := List.mem_map.mp hFile
  obtain ⟨_, _, _, hMade⟩ := hFiles.made entry hEntry
  exact ModelFile.hasCheckedDefault_of_ofModel hMade d hDeclared v hType

end ModelFiles

namespace TypeIndex

variable {files : ModelFiles} {index : TypeIndex}

/-- The keys and the values of a map are resolved, and the keys are texts or instants. -/
theorem resolveMap_eq_ok {file : ModelFile} {d : Declaration} {key value : PropertyType}
    {m : ResolvedMap} (hResolved : file.resolveMap files d key value = .ok m) :
    m.fqn = d.fqn ∧
      file.resolveProperty files d.fqn (d.mapPart mapKeyField key) = .ok m.key ∧
      file.resolveProperty files d.fqn (d.mapPart mapValueField value) = .ok m.value ∧
      ModelFile.isKeyType m.key.type.value? = true := by
  simp only [ModelFile.resolveMap, Outcome.bind_eq_ok] at hResolved
  obtain ⟨keyPart, hKey, hResolved⟩ := hResolved
  split at hResolved
  · simp at hResolved
  · rename_i hKeyType
    simp only [Outcome.bind_eq_ok, Outcome.pure_eq_ok] at hResolved
    obtain ⟨valuePart, hValue, rfl⟩ := hResolved
    exact ⟨rfl, hKey, hValue, by simpa using hKeyType⟩

/-- Every map of a strict index is what a declaration is resolved to. -/
theorem resolvesMap_of_map? (hFiles : IsLoaded files) (hBuild : build files .strict = .ok index)
    {fqn : String} {m : ResolvedMap} (hFound : index.map? fqn = some m) : ResolvesMap files m := by
  obtain ⟨_, hWhole, hPointers⟩ := exists_isWhole hFiles hBuild
  obtain ⟨_, rfl⟩ := checkPointers_strict hPointers
  exact hWhole.maps m (Named.mem_of_find? hFound).1

/-- The keys of a map are texts or instants, and where its values are pointers, they point to a
class. -/
theorem map?_eq_some (hFiles : IsLoaded files) (hBuild : build files .strict = .ok index)
    {fqn : String} {m : ResolvedMap} (hFound : index.map? fqn = some m) :
    ModelFile.isKeyType m.key.type.value? = true ∧
      ∀ target, m.value.type = .relationship target →
        ∃ body, ModelFiles.body? files target = some (.classBody body) := by
  obtain ⟨_, _, _, _, _, _, hResolved⟩ := resolvesMap_of_map? hFiles hBuild hFound
  obtain ⟨_, _, hValue, hKey⟩ := resolveMap_eq_ok hResolved
  refine ⟨hKey, fun target hTarget => ?_⟩
  have hType := (ClassBody.resolveProperty_eq_ok hValue).1
  rw [hTarget] at hType
  exact ModelFile.resolveType_relationship hType

end TypeIndex

end DomainModels
