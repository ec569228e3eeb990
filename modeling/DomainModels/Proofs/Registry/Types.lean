import DomainModels.Proofs.Index.Types
import DomainModels.Proofs.Registry.Run
import DomainModels.Proofs.Uri.Names

/-!
What a registry that is strictly indexed says about its types.

When the declarations bear identifiers as their names, the name of a class can be taken apart in one
way only, and so can that of whatever can stand for the class.
-/

namespace DomainModels

open ModelFiles (IsLoaded Resolves)
open Relation (ReflTransGen)

namespace Registry

variable {r : Registry} {fqn : String}

theorem resolvedClass_eq_ok {c : ResolvedClass} :
    r.resolvedClass fqn = .ok c ↔ r.index.class? fqn = some c := by
  unfold resolvedClass
  split
  · rename_i found hFound
    simp [hFound]
  · rename_i hNone
    simp only [hNone, Outcome.bind_eq_ok]
    constructor
    · rintro ⟨d, _, hFailed⟩
      split at hFailed <;> simp at hFailed
    · intro hAbsurd
      cases hAbsurd

theorem resolvedMap_eq_ok {m : ResolvedMap} :
    r.resolvedMap fqn = .ok m ↔ r.index.map? fqn = some m := by
  unfold resolvedMap
  split
  · rename_i found hFound
    simp [hFound]
  · rename_i hNone
    simp only [hNone, Outcome.bind_eq_ok]
    constructor
    · rintro ⟨d, _, hFailed⟩
      split at hFailed <;> simp at hFailed
    · intro hAbsurd
      cases hAbsurd

/-- The names of the primitive types do not come apart. -/
theorem ofName?_of_splitQualified {space name : String}
    (hSplit : splitQualified fqn = some (space, name)) : PrimitiveType.ofName? fqn = none := by
  cases hName : PrimitiveType.ofName? fqn with
  | none => rfl
  | some type =>
      have hTable : ∀ type ∈ PrimitiveType.all, splitQualified type.name = none := by decide
      have hMem := List.mem_of_find?_eq_some hName
      have hSame : type.name = fqn := by simpa using List.find?_some hName
      rw [← hSame, hTable type hMem] at hSplit
      cases hSplit

/-- What is answered about a name is what is declared under it. -/
theorem getType_eq_ok {d : Declaration} :
    r.getType fqn = .ok d ↔ ∃ file, ModelFiles.find? r.files fqn = some (file, d) := by
  simp only [ModelFiles.find?, Option.bind_eq_bind, Option.bind_eq_some_iff]
  constructor
  · intro hType
    unfold getType at hType
    split at hType
    · cases hType
    · split at hType
      · cases hType
      · rename_i space name hSplit
        split at hType
        · cases hType
        · rename_i file hFile
          split at hType
          · rename_i found hFound
            cases hType
            exact ⟨file, (space, name), hSplit, file, hFile, d, hFound, rfl⟩
          · cases hType
  · rintro ⟨file, ⟨space, name⟩, hSplit, _, hFile, _, hDeclaration, hSame⟩
    cases hSame
    have hHome : r.file? space = some file := hFile
    simp [getType, ofName?_of_splitQualified hSplit, hSplit, hHome, hDeclaration]

theorem getType_of_body? {body : DeclarationBody}
    (hBody : ModelFiles.body? r.files fqn = some body) :
    ∃ d, r.getType fqn = .ok d ∧ d.body = body := by
  obtain ⟨file, d, hFound, hSame⟩ := ModelFiles.body?_eq_some.mp hBody
  exact ⟨d, getType_eq_ok.mpr ⟨file, hFound⟩, hSame⟩

/-- A registry whose files can be indexed strictly, and that holds this index of them. -/
structure IsStrict (r : Registry) : Prop where
  files : IsLoaded r.files
  index : TypeIndex.build r.files .strict = .ok r.index

/-- Wherever a run of changes leads, a registry that validates is strictly indexed. -/
theorem isStrict_of_validate {changes : List Change}
    (hValid : (Session.initial.run changes).registry.validate = .ok ()) :
    (Session.initial.run changes).registry.IsStrict := by
  have hSound := Session.sound_run Session.sound_initial changes
  simp only [validate, Outcome.bind_eq_ok, Outcome.pure_eq_ok] at hValid
  obtain ⟨index, hIndex, _⟩ := hValid
  have hSame := TypeIndex.build_of_strict hIndex (Session.initial.run changes).mode
  rw [hSound.index] at hSame
  cases hSame
  exact ⟨hSound.files, hIndex⟩

/-- All declarations bear identifiers as their names. -/
def HasIdentifiers (r : Registry) : Prop :=
  ∀ found ∈ ModelFiles.declarations r.files, IsIdentifier found.2.name

instance (r : Registry) : Decidable r.HasIdentifiers :=
  inferInstanceAs (Decidable (∀ found ∈ ModelFiles.declarations r.files, IsIdentifier found.2.name))

/-- A declared class is indexed. -/
theorem IsStrict.exists_class? (hStrict : r.IsStrict) {body : ClassBody}
    (hBody : ModelFiles.body? r.files fqn = some (.classBody body)) :
    ∃ c, r.index.class? fqn = some c := by
  obtain ⟨file, d, hFound, hSame⟩ := ModelFiles.body?_eq_some.mp hBody
  have hClass : d.class? = some body := by rw [Declaration.class?, hSame]
  obtain ⟨c, hResolves⟩ := TypeIndex.exists_resolves hStrict.files hStrict.index
    (ModelFiles.findClass_eq_ok.mpr ⟨hFound, hClass⟩)
  exact ⟨c, TypeIndex.class?_of_resolves hStrict.files hStrict.index hResolves⟩

/-- The parts of the name of a class. -/
theorem HasIdentifiers.names_of_resolves (hNames : r.HasIdentifiers)
    (hFiles : IsLoaded r.files) {c : ResolvedClass} (hResolves : Resolves r.files fqn c) :
    c.fqn = fqn ∧ qualify c.space c.name = fqn ∧ IsNamespaceText c.space ∧
      IsIdentifier c.name := by
  obtain ⟨file, d, body, parent, hClass, hResolved⟩ := hResolves.exists_declaration
  obtain ⟨hFind, _⟩ := ModelFiles.findClass_eq_ok.mp hClass
  obtain ⟨hFile, hMem, hSpace, hName⟩ := hFiles.of_findDeclaration hFind
  obtain ⟨_, _, _, _, rfl⟩ := ClassBody.resolve_eq_ok hResolved
  refine ⟨hName, hName, ?_, hNames _ (hFiles.mem_of_find? hFind)⟩
  show IsNamespaceText d.space
  rw [hSpace]
  exact Namespace.isNamespaceText_of_parseVersioned (hFiles.of_find? hFile).1.versioned

/-- The parts of the name of an indexed class. -/
theorem IsStrict.names_of_class? (hStrict : r.IsStrict) (hNames : r.HasIdentifiers)
    {c : ResolvedClass} (hFound : r.index.class? fqn = some c) :
    c.fqn = fqn ∧ qualify c.space c.name = fqn ∧ IsNamespaceText c.space ∧
      IsIdentifier c.name :=
  hNames.names_of_resolves hStrict.files
    (TypeIndex.resolves_of_class? hStrict.files hStrict.index hFound)

/-- The name of an indexed class comes apart into its namespace and its own name. -/
theorem IsStrict.splitQualified_of_class? (hStrict : r.IsStrict) {c : ResolvedClass}
    (hFound : r.index.class? fqn = some c) : splitQualified fqn = some (c.space, c.name) := by
  obtain ⟨_, _, _, _, hClass, hResolved⟩ :=
    (TypeIndex.resolves_of_class? hStrict.files hStrict.index hFound).exists_declaration
  obtain ⟨hFind, _⟩ := ModelFiles.findClass_eq_ok.mp hClass
  obtain ⟨_, _, _, _, rfl⟩ := ClassBody.resolve_eq_ok hResolved
  exact hStrict.files.splitQualified_of_findDeclaration hFind

/-- Where pointers are declared, a class is declared to be pointed to. -/
def PointsToClass (r : Registry) (type : ResolvedType) : Prop :=
  ∀ target, type = .relationship target → ∃ c, r.index.class? target = some c

theorem IsStrict.pointsToClass_of_mem (hStrict : r.IsStrict) {c : ResolvedClass}
    (hFound : r.index.class? fqn = some c) {p : ResolvedProperty} (hMem : p ∈ c.properties) :
    r.PointsToClass p.type := by
  intro target hTarget
  have hResolves := TypeIndex.resolves_of_class? hStrict.files hStrict.index hFound
  rcases hResolves.property_cases hStrict.files hMem with
    ⟨owner, rfl | rfl⟩ | ⟨_, file, d, body, _, _, _, hType⟩
  · cases hTarget
  · cases hTarget
  · rw [hTarget] at hType
    obtain ⟨_, hBody⟩ := ModelFile.resolveType_relationship hType
    exact hStrict.exists_class? hBody

theorem IsStrict.pointsToClass_of_map? (hStrict : r.IsStrict) {m : ResolvedMap}
    (hFound : r.index.map? fqn = some m) : r.PointsToClass m.value.type := by
  intro target hTarget
  obtain ⟨_, hBody⟩ := (TypeIndex.map?_eq_some hStrict.files hStrict.index hFound).2 target hTarget
  exact hStrict.exists_class? hBody

/-- A property of an indexed class is known by its name. -/
theorem IsStrict.property_ext (hStrict : r.IsStrict) {c : ResolvedClass}
    (hFound : r.index.class? fqn = some c) {p q : ResolvedProperty} (hP : p ∈ c.properties)
    (hQ : q ∈ c.properties) (hName : p.name = q.name) : p = q := by
  have hResolves := TypeIndex.resolves_of_class? hStrict.files hStrict.index hFound
  exact List.inj_on_of_nodup_map (hResolves.nodup_properties hStrict.files) hP hQ hName

/-- Among the declared types only enumerations have defaults where fields name them. -/
def HasEnumDefaults (r : Registry) : Prop :=
  ∀ c ∈ r.index.classes, ∀ p ∈ c.properties, ∀ target name,
    p.type = .declared target (some name) →
      ∃ values, ModelFiles.body? r.files target = some (.enumBody values)

/-- The defaults of fields and scalars are numbers of JSON texts. -/
def HasFiniteDefaults (r : Registry) : Prop :=
  ∀ found ∈ ModelFiles.declarations r.files, ∀ type ∈ found.2.body.valueTypes,
    type.HasFiniteDefault

/-- Fields of primitive types name no declared types. -/
theorem hasEnumDefaults_of_values
    (hValues : ∀ c ∈ r.index.classes, ∀ p ∈ c.properties, p.type.value?.isSome = true) :
    r.HasEnumDefaults := by
  intro c hClass p hMem target name hType
  have hValue := hValues c hClass p hMem
  rw [hType] at hValue
  cases hValue

theorem hasFiniteDefaults_of_isNone
    (hNone : ∀ found ∈ ModelFiles.declarations r.files, ∀ type ∈ found.2.body.valueTypes,
      type.default?.isNone = true) : r.HasFiniteDefaults := by
  intro found hMem type hType
  exact ValueType.hasFiniteDefault_of_isNone (hNone found hMem type hType)

/-- What the defaults of a registry have to be like so that the instances that take them can be
written. -/
structure HasPlainDefaults (r : Registry) : Prop where
  defaults : r.HasEnumDefaults
  numbers : r.HasFiniteDefaults

/-- What a registry has to be like so that its instances survive the way through JSON trees: the
names of its declarations are identifiers besides. -/
structure IsPortable (r : Registry) : Prop extends r.HasPlainDefaults where
  identifiers : r.HasIdentifiers

/-- The part of plain defaults that concerns one property. -/
structure HasPlainDefault (r : Registry) (p : ResolvedProperty) : Prop where
  declared : ∀ target name, p.type = .declared target (some name) →
    ∃ values, ModelFiles.body? r.files target = some (.enumBody values)
  number : ∀ v, p.type.value? = some v → v.HasFiniteDefault

theorem HasPlainDefaults.of_mem (hPlain : r.HasPlainDefaults) (hStrict : r.IsStrict)
    {c : ResolvedClass} (hFound : r.index.class? fqn = some c) {p : ResolvedProperty}
    (hMem : p ∈ c.properties) : r.HasPlainDefault p where
  declared := hPlain.defaults c (TypeIndex.mem_of_class? hFound).1 p hMem
  number := by
    intro v hValue
    have hResolves := TypeIndex.resolves_of_class? hStrict.files hStrict.index hFound
    rcases hResolves.valueType_cases hStrict.files hMem hValue with
      ⟨type, rfl⟩ | ⟨file, d, hDeclared, hWritten⟩
    · intro x hDefault
      cases type <;> cases hDefault
    · exact hPlain.numbers _ hDeclared v hWritten

/-- What can stand for an indexed class is an indexed class. -/
theorem IsStrict.class?_of_isAssignable (hStrict : r.IsStrict) {sub : String} {c : ResolvedClass}
    (hFound : r.index.class? fqn = some c) (hAssignable : r.index.isAssignable sub fqn = true) :
    ∃ d, r.index.class? sub = some d := by
  have hAcyclic := TypeIndex.acyclic_of_build hStrict.files hStrict.index
  rcases ReflTransGen.cases_head (hAcyclic.isAssignable_iff.mp hAssignable) with rfl | ⟨_, hStep, _⟩
  · exact ⟨c, hFound⟩
  · obtain ⟨d, hSub, _⟩ := Option.bind_eq_some_iff.mp hStep
    exact ⟨d, hSub⟩

end Registry

namespace Relationship

/-- Pointers whose type has a name that is read back from a URI, and that have an identifier. -/
structure IsProper (pointer : Relationship) : Prop where
  plain : ∀ c ∈ pointer.fqn.toList, isPlainChar c = true
  split : splitQualified pointer.fqn = some (pointer.space, pointer.typeName)
  id : pointer.id ≠ ""

/-- What is read is a pointer with an identifier. Its type is written with a namespace, or it is one
of the default namespace: the default type, or one whose name does not come apart. -/
theorem ofUri_eq_ok {text space name : String} {pointer : Relationship}
    (hRead : ofUri text space name = .ok pointer) :
    pointer.id ≠ "" ∧ (splitQualified pointer.fqn = some (pointer.space, pointer.typeName) ∨
      pointer.space = space ∧
        (pointer.typeName = name ∨ splitQualified pointer.typeName = none)) := by
  have hParts {path id : List Char} (hFound : ofParts? path id space name = some pointer) :
      pointer.id ≠ "" ∧ (splitQualified pointer.fqn = some (pointer.space, pointer.typeName) ∨
        pointer.space = space ∧
          (pointer.typeName = name ∨ splitQualified pointer.typeName = none)) := by
    unfold ofParts? at hFound
    simp only at hFound
    split at hFound
    · cases hFound
    · rename_i hId
      split at hFound
      · rename_i home type hSplit
        cases hFound
        refine ⟨hId, .inl ?_⟩
        rw [fqn, qualify_of_splitQualified hSplit]
        exact hSplit
      · rename_i hNone
        cases hFound
        refine ⟨hId, .inr ⟨rfl, ?_⟩⟩
        by_cases hEmpty : String.ofList (Percent.decode path) = ""
        · exact .inl (if_pos hEmpty)
        · right
          simp only [if_neg hEmpty]
          exact hNone
  unfold ofUri at hRead
  split at hRead
  · split at hRead
    · cases hRead
    · rename_i hSome
      cases hRead
      exact ⟨hSome, .inr ⟨rfl, .inl rfl⟩⟩
  · cases hRead
  · split at hRead
    · cases hRead
    · split at hRead
      · cases hRead
      · split at hRead
        · rename_i found hFound
          cases hRead
          obtain ⟨id, _, hFound⟩ := Option.bind_eq_some_iff.mp hFound
          exact hParts hFound
        · cases hRead

/-- A text that is read as a pointer to something that can stand for a class gives a proper one. -/
theorem isProper_of_ofUri {r : Registry} (hStrict : r.IsStrict) (hNames : r.HasIdentifiers)
    {text declared space name : String} {pointer : Relationship} {c : ResolvedClass}
    (hFound : r.index.class? declared = some c)
    (hDefault : splitQualified declared = some (space, name))
    (hRead : ofUri text space name = .ok pointer)
    (hAssignable : r.index.isAssignable pointer.fqn declared = true) : pointer.IsProper := by
  obtain ⟨hId, hParts⟩ := ofUri_eq_ok hRead
  obtain ⟨d, hSub⟩ := hStrict.class?_of_isAssignable hFound hAssignable
  obtain ⟨_, hName, hSpace, hIdentifier⟩ := hStrict.names_of_class? hNames hSub
  refine ⟨?_, ?_, hId⟩
  · intro c hMem
    rw [← hName] at hMem
    exact isPlainChar_of_qualify hSpace hIdentifier hMem
  · rcases hParts with hSplit | ⟨hHome, hType | hType⟩
    · exact hSplit
    · have hSame : pointer.fqn = declared := by
        rw [fqn, hHome, hType, qualify_of_splitQualified hDefault]
      rw [hSame, hHome, hType, hDefault]
    · obtain ⟨hSameSpace, hSameName⟩ := eq_of_qualify_eq hSpace hIdentifier hType hName.symm
      rw [hSameSpace, hSameName, ← hName]
      exact splitQualified_qualify hSpace.nonempty hIdentifier.isSimpleName

end Relationship

end DomainModels
