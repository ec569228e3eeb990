import DomainModels.Proofs.Index.Inheritance

/-!
What carries over from one set of model files to another one.

A reference is kept if it stands for the same declaration in both sets. What is resolved from kept
references only, is resolved to the same in both of them: a property, a map, and a class together
with its super types.
-/

namespace DomainModels

open Metamodel (TypeName)

/-- The reference by which a declared type is written. -/
def PropertyType.reference? : PropertyType → Option TypeName
  | .value _ => none
  | .declared type _ | .relationship type => some type

/-- The references that are followed where a declaration is resolved. -/
def DeclarationBody.references : DeclarationBody → List TypeName
  | .classBody body => body.superType.toList ++ body.properties.filterMap (·.type.reference?)
  | .mapBody key value => key.reference?.toList ++ value.reference?.toList
  | .scalarBody _ | .enumBody _ => []

theorem Declaration.class?_eq_some {d : Declaration} {body : ClassBody} :
    d.class? = some body ↔ d.body = .classBody body := by
  unfold Declaration.class?
  cases d.body <;> simp

namespace ModelFiles

variable {before after : ModelFiles} {file : ModelFile} {d : Declaration}

/-- What a reference of a file stands for in one set of files, it stands for in another one, too. -/
def Keeps (before after : ModelFiles) (file : ModelFile) (type : TypeName) : Prop :=
  ∀ target, file.resolve before type = .ok target →
    file.resolve after type = .ok target ∧ find? after target = find? before target

/-- A declaration is found in another set of files as it is in one, and its references are kept. -/
def Carries (before after : ModelFiles) (fqn : String) : Prop :=
  ∀ file d, find? before fqn = some (file, d) →
    find? after fqn = some (file, d) ∧ ∀ type ∈ d.body.references, Keeps before after file type

/-! ## Properties and maps -/

theorem Keeps.resolveOrFail {type : TypeName} {target : String}
    (hKeeps : Keeps before after file type)
    (hResolved : file.resolveOrFail before type = .ok target) :
    file.resolveOrFail after type = .ok target ∧ body? after target = body? before target := by
  rw [ModelFile.resolveOrFail, Outcome.mapError_eq_ok] at hResolved
  obtain ⟨hSame, hFound⟩ := hKeeps target hResolved
  rw [ModelFile.resolveOrFail, Outcome.mapError_eq_ok]
  exact ⟨hSame, by rw [body?, hFound, body?]⟩

/-- A property is resolved to the same type. -/
theorem resolveType_of_keeps {p : Property} {type : ResolvedType}
    (hKeeps : ∀ written, p.type.reference? = some written → Keeps before after file written)
    (hType : file.resolveType before p = .ok type) : file.resolveType after p = .ok type := by
  unfold ModelFile.resolveType at hType ⊢
  cases hWritten : p.type with
  | value v =>
      rw [hWritten] at hType
      exact hType
  | declared written default | relationship written =>
      simp only [hWritten, Outcome.bind_eq_ok] at hType ⊢
      obtain ⟨target, hTarget, hType⟩ := hType
      obtain ⟨hSame, hBody⟩ := (hKeeps written (by rw [hWritten]; rfl)).resolveOrFail hTarget
      refine ⟨target, hSame, ?_⟩
      rw [hBody]
      exact hType

theorem resolveProperty_of_keeps {owner : String} {p : Property} {q : ResolvedProperty}
    (hKeeps : ∀ written, p.type.reference? = some written → Keeps before after file written)
    (hResolved : file.resolveProperty before owner p = .ok q) :
    file.resolveProperty after owner p = .ok q := by
  simp only [ModelFile.resolveProperty, Outcome.bind_eq_ok] at hResolved ⊢
  obtain ⟨type, hType, hResolved⟩ := hResolved
  exact ⟨type, resolveType_of_keeps hKeeps hType, hResolved⟩

theorem resolveMap_of_keeps {key value : PropertyType} {m : ResolvedMap}
    (hBody : d.body = .mapBody key value)
    (hKeeps : ∀ type ∈ d.body.references, Keeps before after file type)
    (hResolved : file.resolveMap before d key value = .ok m) :
    file.resolveMap after d key value = .ok m := by
  have hKept (type : PropertyType) (hPart : type = key ∨ type = value) (name : String)
      (written : TypeName) (hWritten : (d.mapPart name type).type.reference? = some written) :
      Keeps before after file written := by
    refine hKeeps written ?_
    rw [hBody, DeclarationBody.references, List.mem_append]
    rcases hPart with rfl | rfl
    · exact .inl (Option.mem_toList.mpr hWritten)
    · exact .inr (Option.mem_toList.mpr hWritten)
  simp only [ModelFile.resolveMap, Outcome.bind_eq_ok] at hResolved ⊢
  obtain ⟨keyPart, hKey, hResolved⟩ := hResolved
  refine ⟨keyPart, resolveProperty_of_keeps (hKept key (.inl rfl) _) hKey, ?_⟩
  split at hResolved
  · simp at hResolved
  · rename_i hKeyType
    rw [if_neg hKeyType]
    simp only [Outcome.bind_eq_ok] at hResolved ⊢
    obtain ⟨valuePart, hValue, hResolved⟩ := hResolved
    exact ⟨valuePart, resolveProperty_of_keeps (hKept value (.inr rfl) _) hValue, hResolved⟩

/-! ## Classes -/

theorem resolveOwn_of_keeps {seen : List String} {properties : List Property}
    {declared : List ResolvedProperty}
    (hKeeps : ∀ type ∈ properties.filterMap (·.type.reference?), Keeps before after file type)
    (hDeclared : ClassBody.resolveOwn before file d seen properties = .ok declared) :
    ClassBody.resolveOwn after file d seen properties = .ok declared := by
  induction properties generalizing seen declared with
  | nil => exact hDeclared
  | cons p rest ih =>
      obtain ⟨q, later, hSystem, hNew, hResolved, hLater, rfl⟩ :=
        ClassBody.resolveOwn_cons hDeclared
      have hFirst : file.resolveProperty after d.fqn p = .ok q := resolveProperty_of_keeps
        (fun written hWritten => hKeeps written
          (List.mem_filterMap.mpr ⟨p, List.mem_cons_self, hWritten⟩)) hResolved
      have hRest := ih (fun type hMem => hKeeps type (by
        obtain ⟨other, hOther, hWritten⟩ := List.mem_filterMap.mp hMem
        exact List.mem_filterMap.mpr ⟨other, List.mem_cons_of_mem _ hOther, hWritten⟩)) hLater
      have hName : ¬ (isSystemName p.name = true ∧ d.space ≠ rootNamespace) :=
        fun h => h.2 (hSystem h.1)
      rw [ClassBody.resolveOwn, if_neg hName, if_neg (by simpa using hNew)]
      simp only [Outcome.bind_eq_ok]
      exact ⟨q, hFirst, later, hRest, rfl⟩

/-- The body of a class is resolved to the same class. -/
theorem resolve_of_keeps {body : ClassBody} {parent : Option ResolvedClass} {c : ResolvedClass}
    (hKeeps : ∀ type ∈ body.properties.filterMap (·.type.reference?),
      Keeps before after file type)
    (hResolved : body.resolve before file d parent = .ok c) :
    body.resolve after file d parent = .ok c := by
  obtain ⟨declared, hDeclared, _⟩ := ClassBody.resolve_eq_ok hResolved
  unfold ClassBody.resolve at hResolved ⊢
  rw [hDeclared] at hResolved
  rw [resolveOwn_of_keeps hKeeps hDeclared]
  exact hResolved

/-- The root classes are the same in all sets of files. -/
theorem IsLoaded.find?_rootClass {files : ModelFiles} (hFiles : IsLoaded files) (kind : ClassKind) :
    find? files kind.rootClass = (Root.file.declaration? kind.rootName).map (Root.file, ·) := by
  have hSplit : splitQualified kind.rootClass = some (rootNamespace, kind.rootName) := by
    cases kind <;> rfl
  rw [find?, hSplit]
  simp only [Option.bind_eq_bind, Option.bind_some, hFiles.root]
  cases Root.file.declaration? kind.rootName <;> rfl

/-- A class has the same super type. -/
theorem resolveSuper_of_keeps (hBefore : IsLoaded before) (hAfter : IsLoaded after)
    {body : ClassBody} {superType : Option String}
    (hKeeps : ∀ type ∈ body.superType.toList, Keeps before after file type)
    (hSuper : body.resolveSuper before file d = .ok superType) :
    body.resolveSuper after file d = .ok superType ∧
      ∀ target, superType = some target → find? after target = find? before target := by
  unfold ClassBody.resolveSuper at hSuper ⊢
  cases hWritten : body.superType with
  | none =>
      rw [hWritten] at hSuper
      cases hSuper
      refine ⟨rfl, fun target hTarget => ?_⟩
      split at hTarget
      · cases hTarget
      · cases hTarget
        rw [hBefore.find?_rootClass, hAfter.find?_rootClass]
  | some type =>
      simp only [hWritten, Outcome.bind_eq_ok] at hSuper ⊢
      obtain ⟨target, hTarget, hSuper⟩ := hSuper
      rw [ModelFile.resolveOrFail, Outcome.mapError_eq_ok] at hTarget
      obtain ⟨hSame, hFound⟩ := hKeeps type (by rw [hWritten]; exact List.mem_singleton_self type)
        target hTarget
      refine ⟨⟨target, Outcome.mapError_eq_ok.mpr hSame, hSuper⟩, fun other hOther => ?_⟩
      subst hOther
      split at hSuper
      · split at hSuper <;> simp at hSuper
      · rw [Outcome.pure_eq_ok] at hSuper
        rw [← Option.some.inj hSuper]
        exact hFound

theorem superOf_of_keeps (hBefore : IsLoaded before) (hAfter : IsLoaded after)
    {body : ClassBody} {superType : Option String}
    (hKeeps : ∀ type ∈ body.superType.toList, Keeps before after file type)
    (hSuper : body.superOf before file d = .ok superType) :
    body.superOf after file d = .ok superType := by
  simp only [ClassBody.superOf, Outcome.bind_eq_ok] at hSuper ⊢
  obtain ⟨found, hFound, hSuper⟩ := hSuper
  obtain ⟨hSame, hTarget⟩ := resolveSuper_of_keeps hBefore hAfter hKeeps hFound
  refine ⟨found, hSame, ?_⟩
  cases found with
  | none => exact hSuper
  | some target =>
      simp only [Outcome.bind_eq_ok, ClassBody.checkSuper] at hSuper ⊢
      rw [hTarget target rfl]
      exact hSuper

/-- A class is resolved to the same if it carries over with all classes that its resolution goes
on to. -/
theorem Resolves.carry (hBefore : IsLoaded before) (hAfter : IsLoaded after) {P : String → Prop}
    (hCarries : ∀ name, P name → Carries before after name)
    (hStep : ∀ name super, P name → Needs before name super → Needs after name super → P super)
    {fqn : String} {c : ResolvedClass} (hResolves : Resolves before fqn c) (hFirst : P fqn) :
    Resolves after fqn c := by
  induction hResolves with
  | base hFound hSuper hResolved =>
      obtain ⟨hFind, hClass⟩ := findClass_eq_ok.mp hFound
      obtain ⟨hSame, hKeeps⟩ := hCarries _ hFirst _ _ hFind
      rw [Declaration.class?_eq_some.mp hClass, DeclarationBody.references] at hKeeps
      refine .base (findClass_eq_ok.mpr ⟨hSame, hClass⟩) ?_ ?_
      · exact superOf_of_keeps hBefore hAfter
          (fun type hMem => hKeeps type (List.mem_append_left _ hMem)) hSuper
      · exact resolve_of_keeps
          (fun type hMem => hKeeps type (List.mem_append_right _ hMem)) hResolved
  | sub hFound hSuper hParent hResolved ih =>
      obtain ⟨hFind, hClass⟩ := findClass_eq_ok.mp hFound
      obtain ⟨hSame, hKeeps⟩ := hCarries _ hFirst _ _ hFind
      rw [Declaration.class?_eq_some.mp hClass, DeclarationBody.references] at hKeeps
      have hSameSuper := superOf_of_keeps hBefore hAfter
        (fun type hMem => hKeeps type (List.mem_append_left _ hMem)) hSuper
      have hFoundAfter := findClass_eq_ok.mpr ⟨hSame, hClass⟩
      refine .sub hFoundAfter hSameSuper (ih ?_) ?_
      · exact hStep _ _ hFirst ⟨_, _, _, hFound, hSuper⟩ ⟨_, _, _, hFoundAfter, hSameSuper⟩
      · exact resolve_of_keeps
          (fun type hMem => hKeeps type (List.mem_append_right _ hMem)) hResolved

end ModelFiles

end DomainModels
