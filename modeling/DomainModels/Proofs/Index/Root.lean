import DomainModels.Proofs.Index.Stages
import DomainModels.Registry.Basic

/-!
The index of the root model: five classes without super types, which the search resolves one by one.
-/

namespace DomainModels

/-- A declared class without a super type is resolved by itself. -/
theorem ModelFiles.resolveClass_of_no_super {files : ModelFiles} {fqn : String} {known : Findings}
    {file : ModelFile} {d : Declaration} {body : ClassBody} {c : ResolvedClass}
    (hNew : known.lookup fqn = none) (hFound : findClass files fqn = .ok (file, d, body))
    (hSuper : body.superOf files file d = .ok none)
    (hResolved : body.resolve files file d none = .ok c) :
    resolveClass files [] fqn known = (.ok c, (fqn, .ok c) :: known) := by
  rw [resolveClass]
  simp only [hNew, List.not_mem_nil, dite_false]
  split
  · rename_i hMissing
    rw [hFound] at hMissing
    cases hMissing
  · rename_i hSame
    rw [hFound] at hSame
    cases hSame
    simp only [hSuper, hResolved]

/-- So is one whose super type is resolved. -/
theorem ModelFiles.resolveClass_of_known_super {files : ModelFiles} {fqn superType : String}
    {known : Findings} {file : ModelFile} {d : Declaration} {body : ClassBody}
    {parent c : ResolvedClass} (hNew : known.lookup fqn = none)
    (hFound : findClass files fqn = .ok (file, d, body))
    (hSuper : body.superOf files file d = .ok (some superType))
    (hKnown : known.lookup superType = some (.ok parent))
    (hResolved : body.resolve files file d (some parent) = .ok c) :
    resolveClass files [] fqn known = (.ok c, (fqn, .ok c) :: known) := by
  have hParent : resolveClass files ([] ++ [fqn]) superType known = (.ok parent, known) := by
    rw [resolveClass, hKnown]
  rw [resolveClass]
  simp only [hNew, List.not_mem_nil, dite_false]
  split
  · rename_i hMissing
    rw [hFound] at hMissing
    cases hMissing
  · rename_i hSame
    rw [hFound] at hSame
    cases hSame
    have hBind : (Except.ok parent).bind (fun p => body.resolve files file d (some p)) = .ok c :=
      hResolved
    simp only [hSuper, hParent, hBind]

namespace Root

open TypeIndex (resolveEach resolveEach_cons_ok resolveClasses resolveMaps arrange declaredNames)

/-- The kinds of the root classes, with what identifies them. -/
def kinds : List (ClassKind × Option Metamodel.Identified) :=
  [(.concept, none), (.asset, some .system), (.participant, some .system), (.transaction, none),
   (.event, none)]

/-- What is known once the root classes are resolved. -/
def findings : ModelFiles.Findings :=
  (kinds.map fun (kind, identified) =>
    (kind.rootClass, .ok (resolvedClass kind identified))).reverse

section

variable {files : ModelFiles} (hRoot : Table.find? files rootNamespace = some file)

include hRoot

/-- Wherever the root model is loaded, its classes are found in it. -/
theorem findClass_rootClass {kind : ClassKind} {d : Declaration} {body : ClassBody}
    (hDeclared : file.declaration? kind.rootName = some d) (hClass : d.class? = some body) :
    ModelFiles.findClass files kind.rootClass = .ok (file, d, body) := by
  have hSplit : splitQualified kind.rootClass = some (rootNamespace, kind.rootName) := by
    cases kind <;> decide
  have hFind : ModelFiles.find? files kind.rootClass = some (file, d) := by
    simp only [ModelFiles.find?, hSplit, hRoot, hDeclared, Option.bind_eq_bind, Option.bind_some]
    rfl
  simp only [ModelFiles.findClass, hFind, hClass]

theorem resolveClass_rootClass {known : ModelFiles.Findings} {kind : ClassKind}
    {identified : Option Metamodel.Identified} (hKind : (kind, identified) ∈ kinds)
    (hNew : known.lookup kind.rootClass = none) :
    ModelFiles.resolveClass files [] kind.rootClass known =
      (.ok (resolvedClass kind identified),
        (kind.rootClass, .ok (resolvedClass kind identified)) :: known) := by
  simp only [kinds, List.mem_cons, Prod.mk.injEq, List.not_mem_nil, or_false] at hKind
  rcases hKind with ⟨rfl, rfl⟩ | ⟨rfl, rfl⟩ | ⟨rfl, rfl⟩ | ⟨rfl, rfl⟩ | ⟨rfl, rfl⟩
  all_goals
    exact ModelFiles.resolveClass_of_no_super hNew (findClass_rootClass hRoot rfl rfl) rfl rfl

/-- The root classes are resolved one after the other, before those of other models. -/
theorem resolveEach_rootClasses {mode : BuildMode} {rest : List String}
    {later : List ResolvedClass} (hRest : resolveEach files mode rest findings = .ok later) :
    resolveEach files mode (kinds.map (·.1.rootClass) ++ rest) [] =
      .ok ((kinds.map fun (kind, identified) => resolvedClass kind identified) ++ later) := by
  have hEach {kind : ClassKind} {identified : Option Metamodel.Identified}
      {known : ModelFiles.Findings} {names : List String} {classes : List ResolvedClass}
      (hKind : (kind, identified) ∈ kinds) (hNew : known.lookup kind.rootClass = none)
      (hNext : resolveEach files mode names
        ((kind.rootClass, .ok (resolvedClass kind identified)) :: known) = .ok classes) :
      resolveEach files mode (kind.rootClass :: names) known =
        .ok (resolvedClass kind identified :: classes) :=
    resolveEach_cons_ok (resolveClass_rootClass hRoot hKind hNew) hNext
  refine hEach (by decide) rfl (hEach (by decide) rfl (hEach (by decide) rfl ?_))
  exact hEach (by decide) rfl (hEach (by decide) rfl hRest)

end

/-- A class is resolved after its super type. -/
theorem resolveEach_cons_sub {files : ModelFiles} {mode : BuildMode} {fqn superType : String}
    {rest : List String} {known : ModelFiles.Findings} {home : ModelFile} {d : Declaration}
    {body : ClassBody} {parent c : ResolvedClass} {later : List ResolvedClass}
    (hNew : known.lookup fqn = none)
    (hFound : ModelFiles.findClass files fqn = .ok (home, d, body))
    (hSuper : body.superOf files home d = .ok (some superType))
    (hKnown : known.lookup superType = some (.ok parent))
    (hResolved : body.resolve files home d (some parent) = .ok c)
    (hRest : resolveEach files mode rest ((fqn, .ok c) :: known) = .ok later) :
    resolveEach files mode (fqn :: rest) known = .ok (c :: later) :=
  resolveEach_cons_ok
    (ModelFiles.resolveClass_of_known_super hNew hFound hSuper hKnown hResolved) hRest

/-- What is built where the root model comes first, and where the declarations of the other models
have names of their own, up to the check of the relationships. -/
theorem build_of_rest {files : ModelFiles} {mode : BuildMode} {names : List String}
    {checked : List Unit} {classes : List ResolvedClass} {maps : List ResolvedMap}
    (hRoot : Table.find? files rootNamespace = some file)
    (hNames : TypeIndex.classNames files = kinds.map (·.1.rootClass) ++ names)
    (hChecked : mode.collect ((Table.values files).map fun file => file.check files) = .ok checked)
    (hClasses : resolveEach files mode names findings = .ok classes)
    (hMaps : resolveMaps files mode = .ok maps)
    (hClassOrder : arrange (·.fqn) (declaredNames files) (index.classes ++ classes) =
      index.classes ++ classes)
    (hMapOrder : arrange (·.fqn) (declaredNames files) maps = maps) :
    TypeIndex.build files mode =
      TypeIndex.checkPointers mode ⟨index.classes ++ classes, maps⟩ := by
  have hAll : resolveClasses files mode = .ok (index.classes ++ classes) := by
    unfold resolveClasses
    rw [hNames]
    exact resolveEach_rootClasses hRoot hClasses
  simp only [TypeIndex.build, hChecked, hAll, hMaps]
  show TypeIndex.checkPointers mode
    ⟨arrange (·.fqn) (declaredNames files) (index.classes ++ classes),
      arrange (·.fqn) (declaredNames files) maps⟩ = _
  rw [hClassOrder, hMapOrder]

/-- The index of the root classes is the one of the root model. -/
theorem build_files : TypeIndex.build files .strict = .ok index :=
  (build_of_rest rfl rfl rfl rfl rfl rfl rfl).trans
    (TypeIndex.checkPointers_of_no_pointers .strict (by decide) (by decide))

end Root

/-- A concept as an index holds it: with the names of its namespace, of itself, of the class of this
namespace that it extends, if it extends one, and of the field that identifies its instances, if one
does. It can have instances, it has no decorators, and it introduces its identifier itself. -/
def ResolvedClass.concept (space name : String) (super identifier : Option String)
    (properties : List ResolvedProperty) : ResolvedClass where
  fqn := qualify space name
  name := name
  space := space
  kind := .concept
  isAbstract := false
  superType := some (super.elim ClassKind.concept.rootClass (qualify space))
  properties := properties
  identifier := identifier
  identifierOwner := identifier.map fun _ => qualify space name
  decorators := []

end DomainModels
