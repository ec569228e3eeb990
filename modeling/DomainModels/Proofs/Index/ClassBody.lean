import DomainModels.Index.Class
import DomainModels.Proofs.Named
import DomainModels.Proofs.Outcome

/-!
What the checks of a single class leave true of it, once its super type is resolved.
-/

namespace DomainModels.ClassBody

variable {files : ModelFiles} {file : ModelFile} {d : Declaration} {body : ClassBody}
  {parent : Option ResolvedClass} {c : ResolvedClass}

theorem checkInherited_eq_ok {inherited : List ResolvedProperty} {p : ResolvedProperty} :
    checkInherited file d inherited p = .ok () ↔ ∀ q ∈ inherited, q.name ≠ p.name := by
  unfold checkInherited
  split
  · rename_i q hFound
    obtain ⟨hMem, hSame⟩ := Named.mem_of_find? hFound
    refine ⟨nofun, fun hNone => ?_⟩
    exact (hNone q hMem hSame).elim
  · rename_i hNone
    simpa using hNone

/-- What a class comes to when it can be resolved. -/
theorem resolve_eq_ok (hResolved : body.resolve files file d parent = .ok c) :
    ∃ declared, resolveOwn files file d [] body.properties = .ok declared ∧
      (∀ p ∈ declared ++ body.systemProperties d.fqn (inheritedFrom parent),
        ∀ q ∈ inheritedFrom parent, q.name ≠ p.name) ∧
      (∀ name, body.identified = some (.by name) →
        checkIdentifier file d (body.assemble d parent declared).properties name = .ok ()) ∧
      c = body.assemble d parent declared := by
  unfold resolve at hResolved
  simp only [] at hResolved
  split at hResolved
  · simp at hResolved
  · simp only [Outcome.bind_eq_ok, Outcome.exists_unit, Outcome.forM_eq_ok,
      checkInherited_eq_ok] at hResolved
    obtain ⟨declared, hDeclared, hNew, hResolved⟩ := hResolved
    split at hResolved
    · rename_i name hName
      simp only [Outcome.bind_eq_ok, Outcome.exists_unit, Outcome.pure_eq_ok] at hResolved
      obtain ⟨hIdentifier, rfl⟩ := hResolved
      refine ⟨declared, hDeclared, hNew, ?_, rfl⟩
      intro other hOther
      rw [hName] at hOther
      cases hOther
      exact hIdentifier
    · rename_i hNone
      rw [Outcome.pure_eq_ok] at hResolved
      refine ⟨declared, hDeclared, hNew, ?_, hResolved.symm⟩
      intro name hName
      exact (hNone name hName).elim

theorem fqn_of_resolve (hResolved : body.resolve files file d parent = .ok c) : c.fqn = d.fqn := by
  obtain ⟨_, _, _, _, rfl⟩ := resolve_eq_ok hResolved
  rfl

/-! ## Properties -/

theorem resolveOwn_cons {seen : List String} {p : Property} {rest : List Property}
    {declared : List ResolvedProperty}
    (hDeclared : resolveOwn files file d seen (p :: rest) = .ok declared) :
    ∃ q later, (isSystemName p.name → d.space = rootNamespace) ∧ p.name ∉ seen ∧
      file.resolveProperty files d.fqn p = .ok q ∧
      resolveOwn files file d (p.name :: seen) rest = .ok later ∧ declared = q :: later := by
  simp only [resolveOwn] at hDeclared
  split at hDeclared
  · simp at hDeclared
  · rename_i hName
    split at hDeclared
    · simp at hDeclared
    · rename_i hNew
      simp only [Outcome.bind_eq_ok, Outcome.pure_eq_ok] at hDeclared
      obtain ⟨q, hResolved, later, hLater, rfl⟩ := hDeclared
      refine ⟨q, later, ?_, by simpa using hNew, hResolved, hLater, rfl⟩
      intro hSystem
      by_contra hOther
      exact hName ⟨hSystem, hOther⟩

theorem resolveProperty_eq_ok {owner : String} {p : Property} {q : ResolvedProperty}
    (hResolved : file.resolveProperty files owner p = .ok q) :
    file.resolveType files p = .ok q.type ∧ q.property = p ∧ q.owner = owner := by
  simp only [ModelFile.resolveProperty, Outcome.bind_eq_ok, Outcome.pure_eq_ok] at hResolved
  obtain ⟨type, hType, rfl⟩ := hResolved
  exact ⟨hType, rfl, rfl⟩

/-- The declared properties are resolved one by one. Their names differ from each other, and outside
of the root model none of them is reserved. -/
theorem resolveOwn_eq_ok {seen : List String} {properties : List Property}
    {declared : List ResolvedProperty}
    (hDeclared : resolveOwn files file d seen properties = .ok declared) :
    List.Forall₂ (fun p q => file.resolveProperty files d.fqn p = .ok q) properties declared ∧
      (∀ q ∈ declared, isSystemName q.name → d.space = rootNamespace) ∧
      (∀ q ∈ declared, q.name ∉ seen) ∧ (declared.map (·.name)).Nodup := by
  induction properties generalizing seen declared with
  | nil =>
      cases hDeclared
      simp
  | cons p rest ih =>
      obtain ⟨q, later, hSystem, hNew, hResolved, hLater, rfl⟩ := resolveOwn_cons hDeclared
      obtain ⟨hEach, hSystems, hUnseen, hNames⟩ := ih hLater
      obtain ⟨_, hProperty, _⟩ := resolveProperty_eq_ok hResolved
      have hName : q.name = p.name := by rw [ResolvedProperty.name, hProperty]
      refine ⟨.cons hResolved hEach, ?_, ?_, ?_⟩
      · intro other hMem
        rcases List.mem_cons.mp hMem with rfl | hMem
        · rw [hName]
          exact hSystem
        · exact hSystems other hMem
      · intro other hMem
        rcases List.mem_cons.mp hMem with rfl | hMem
        · rw [hName]
          exact hNew
        · exact fun hSeen => hUnseen other hMem (List.mem_cons_of_mem _ hSeen)
      · rw [List.map_cons, List.nodup_cons]
        refine ⟨?_, hNames⟩
        intro hMem
        obtain ⟨other, hOther, hSame⟩ := List.mem_map.mp hMem
        exact hUnseen other hOther (by simp [hSame, hName])

/-- Nothing is lost or added, and the order stays. -/
theorem map_property_of_resolveOwn {properties : List Property} {declared : List ResolvedProperty}
    (hDeclared : resolveOwn files file d [] properties = .ok declared) :
    declared.map (·.property) = properties := by
  obtain ⟨hEach, _⟩ := resolveOwn_eq_ok hDeclared
  have hSame : List.Forall₂ Eq properties (declared.map (·.property)) :=
    List.forall₂_map_right_iff.mpr
      (hEach.imp fun p q hResolved => (resolveProperty_eq_ok hResolved).2.1.symm)
  rw [List.forall₂_eq_eq_eq] at hSame
  exact hSame.symm

theorem resolveProperty_of_resolveOwn {properties : List Property}
    {declared : List ResolvedProperty}
    (hDeclared : resolveOwn files file d [] properties = .ok declared) {q : ResolvedProperty}
    (hMem : q ∈ declared) : file.resolveProperty files d.fqn q.property = .ok q := by
  obtain ⟨hEach, _⟩ := resolveOwn_eq_ok hDeclared
  obtain ⟨p, _, hResolved⟩ := Named.exists_of_forall₂ hEach hMem
  rw [(resolveProperty_eq_ok hResolved).2.1]
  exact hResolved

/-- Every declared property is owned by its class. -/
theorem owner_of_resolveOwn {properties : List Property} {declared : List ResolvedProperty}
    (hDeclared : resolveOwn files file d [] properties = .ok declared) {q : ResolvedProperty}
    (hMem : q ∈ declared) : q.owner = d.fqn :=
  (resolveProperty_eq_ok (resolveProperty_of_resolveOwn hDeclared hMem)).2.2

/-- The system adds an identifier and a time stamp to the classes that need them and do not inherit
them. -/
theorem mem_systemProperties {fqn : String} {inherited : List ResolvedProperty}
    {q : ResolvedProperty} : q ∈ body.systemProperties fqn inherited ↔
      (body.identified = some .system ∧ (∀ p ∈ inherited, p.name ≠ identifierField) ∧
        q = systemProperty identifierField .string fqn) ∨
      (body.kind.isTimestamped ∧ (∀ p ∈ inherited, p.name ≠ timestampField) ∧
        q = systemProperty timestampField .dateTime fqn) := by
  have hAbsent (name : String) :
      (!inherited.any (·.name = name)) = true ↔ ∀ p ∈ inherited, p.name ≠ name := by
    simp
  simp only [systemProperties, hAbsent, List.mem_append, List.mem_ite_nil_right,
    List.mem_singleton, and_assoc]

/-- What the system adds is owned by the class, bears a reserved name, and is not inherited. -/
theorem of_mem_systemProperties {fqn : String} {inherited : List ResolvedProperty}
    {q : ResolvedProperty} (hMem : q ∈ body.systemProperties fqn inherited) :
    q.owner = fqn ∧ isSystemName q.name = true ∧ ∀ p ∈ inherited, p.name ≠ q.name := by
  rcases mem_systemProperties.mp hMem with ⟨_, hNew, rfl⟩ | ⟨_, hNew, rfl⟩
  · exact ⟨rfl, (by decide : isSystemName identifierField = true), hNew⟩
  · exact ⟨rfl, (by decide : isSystemName timestampField = true), hNew⟩

theorem nodup_systemProperties (fqn : String) (inherited : List ResolvedProperty) :
    ((body.systemProperties fqn inherited).map (·.name)).Nodup := by
  have hOther : identifierField ≠ timestampField := by decide
  unfold systemProperties
  simp only
  split <;> split <;> simp [systemProperty, ResolvedProperty.name, hOther]

/-! ## The super type -/

/-- A class that is extended has the kind of the class that extends it, or is the root class of all
concepts. -/
theorem checkSuper_eq_ok {superType : String}
    (hChecked : body.checkSuper files file d superType = .ok ()) :
    ∃ home declaration parentBody,
      ModelFiles.find? files superType = some (home, declaration) ∧
      declaration.class? = some parentBody ∧
      (parentBody.kind = body.kind ∨ superType = ClassKind.concept.rootClass) := by
  unfold checkSuper at hChecked
  split at hChecked
  · cases hChecked
  · rename_i home declaration hFound
    split at hChecked
    · cases hChecked
    · rename_i parentBody hBody
      split at hChecked
      · cases hChecked
      · rename_i hKind
        refine ⟨home, declaration, parentBody, hFound, hBody, ?_⟩
        by_cases hSame : parentBody.kind = body.kind
        · exact .inl hSame
        · exact .inr (by simpa [hSame] using hKind)

theorem superOf_eq_some {superType : String}
    (hSuper : body.superOf files file d = .ok (some superType)) :
    body.resolveSuper files file d = .ok (some superType) ∧
      body.checkSuper files file d superType = .ok () := by
  simp only [superOf, Outcome.bind_eq_ok] at hSuper
  obtain ⟨found, hFound, hSuper⟩ := hSuper
  cases found with
  | none => simp at hSuper
  | some target =>
      simp only [Outcome.bind_eq_ok, Outcome.exists_unit, Outcome.pure_eq_ok,
        Option.some.injEq] at hSuper
      obtain ⟨hChecked, rfl⟩ := hSuper
      exact ⟨hFound, hChecked⟩

theorem superOf_eq_none (hSuper : body.superOf files file d = .ok none) :
    body.resolveSuper files file d = .ok none := by
  simp only [superOf, Outcome.bind_eq_ok] at hSuper
  obtain ⟨found, hFound, hSuper⟩ := hSuper
  cases found with
  | none => exact hFound
  | some target => simp at hSuper

end DomainModels.ClassBody
