import DomainModels.Proofs.Named
import DomainModels.Proofs.Outcome
import DomainModels.Schema.Root

/-!
What the checks that concern one model alone leave true of its file: the namespace carries a
version, every declaration belongs to it, and no two declarations share a name.
-/

namespace DomainModels

namespace FileContext

theorem makeDeclaration_eq_ok {ctx : FileContext} {node : Metamodel.Declaration} {d : Declaration}
    (hMade : ctx.makeDeclaration node = .ok d) : d.name = node.name ∧ d.space = ctx.space := by
  simp only [makeDeclaration, Outcome.bind_eq_ok, Outcome.pure_eq_ok] at hMade
  obtain ⟨_, _, _, _, rfl⟩ := hMade
  exact ⟨rfl, rfl⟩

/-- A declaration joins the later ones if it can be made and its name is free. -/
theorem makeDeclarations_cons {ctx : FileContext} {imports : Table String} {seen : List String}
    {node : Metamodel.Declaration} {rest : List Metamodel.Declaration} {ds : List Declaration} :
    ctx.makeDeclarations imports seen (node :: rest) = .ok ds ↔
      ∃ d later, ctx.makeDeclaration node = .ok d ∧ node.name ∉ seen ∧
        imports.find? node.name = none ∧
        ctx.makeDeclarations imports (node.name :: seen) rest = .ok later ∧ ds = d :: later := by
  simp only [makeDeclarations, Outcome.bind_eq_ok]
  constructor
  · rintro ⟨d, hDeclaration, hMade⟩
    split at hMade
    · simp at hMade
    · rename_i hNew
      split at hMade
      · simp at hMade
      · rename_i hFree
        simp only [Outcome.bind_eq_ok, Outcome.pure_eq_ok] at hMade
        obtain ⟨later, hLater, rfl⟩ := hMade
        exact ⟨d, later, hDeclaration, by simpa using hNew,
          Option.eq_none_iff_forall_ne_some.mpr hFree, hLater, rfl⟩
  · rintro ⟨d, later, hDeclaration, hNew, hFree, hLater, rfl⟩
    refine ⟨d, hDeclaration, ?_⟩
    rw [if_neg (by simpa using hNew), hFree]
    exact Outcome.bind_eq_ok.mpr ⟨later, hLater, rfl⟩

/-- The declarations of a model belong to its namespace. Their names differ from each other and from
those that were seen before. -/
theorem makeDeclarations_eq_ok {ctx : FileContext} {imports : Table String} {seen : List String}
    {nodes : List Metamodel.Declaration} {ds : List Declaration}
    (hMade : ctx.makeDeclarations imports seen nodes = .ok ds) :
    (∀ d ∈ ds, d.space = ctx.space) ∧ (∀ d ∈ ds, d.name ∉ seen) ∧ (ds.map (·.name)).Nodup := by
  induction nodes generalizing seen ds with
  | nil =>
      simp only [makeDeclarations, Except.ok.injEq] at hMade
      subst hMade
      simp
  | cons node rest ih =>
      obtain ⟨d, later, hDeclaration, hNew, _, hLater, rfl⟩ := makeDeclarations_cons.mp hMade
      obtain ⟨hName, hSpace⟩ := makeDeclaration_eq_ok hDeclaration
      obtain ⟨hSpaces, hUnseen, hNames⟩ := ih hLater
      refine ⟨?_, ?_, ?_⟩
      · intro other hMem
        rcases List.mem_cons.mp hMem with rfl | hMem
        · exact hSpace
        · exact hSpaces other hMem
      · intro other hMem
        rcases List.mem_cons.mp hMem with rfl | hMem
        · exact hName ▸ hNew
        · exact fun hSeen => hUnseen other hMem (List.mem_cons_of_mem _ hSeen)
      · rw [List.map_cons, List.nodup_cons]
        refine ⟨?_, hNames⟩
        intro hMem
        obtain ⟨other, hOther, hSame⟩ := List.mem_map.mp hMem
        exact hUnseen other hOther (by simp [hSame, hName])

/-- A namespace that is imported as a whole is one that an import names. -/
theorem bindImports_eq_ok {ctx : FileContext} {table explicit : Table String}
    {wildcards found : List String} {nodes : List Metamodel.Import}
    (hBound : ctx.bindImports table wildcards nodes = .ok (explicit, found)) :
    ∀ space ∈ found, space ∈ wildcards ∨ ∃ node ∈ nodes, node.space = space := by
  induction nodes generalizing table wildcards with
  | nil =>
      cases hBound
      exact fun space hMem => .inl hMem
  | cons node rest ih =>
      simp only [bindImports] at hBound
      split at hBound
      · simp at hBound
      · simp only [Outcome.bind_eq_ok] at hBound
        obtain ⟨_, _, hBound⟩ := hBound
        intro space hMem
        rcases ih hBound space hMem with hKnown | ⟨other, hOther, hSpace⟩
        · have hNew : space ∈ wildcards ∨ node.space = space := by
            split at hKnown
            · split at hKnown
              · exact .inl hKnown
              · exact (List.mem_append.mp hKnown).imp_right fun h => (List.mem_singleton.mp h).symm
            · exact .inl hKnown
          exact hNew.imp_right fun hSpace => ⟨node, List.mem_cons_self, hSpace⟩
        · exact .inr ⟨other, List.mem_cons_of_mem _ hOther, hSpace⟩

end FileContext

namespace ModelFile

/-- What every file that was made from a model satisfies. -/
structure IsMade (file : ModelFile) : Prop where
  versioned : Namespace.parseVersioned file.space = .ok file.version
  spaces : ∀ d ∈ file.declarations, d.space = file.space
  names : (file.declarations.map (·.name)).Nodup

theorem isMade_of_ofModel {model : Metamodel.Model} {fileName : Option String}
    {factories : List DecoratorFactory} {file : ModelFile}
    (hMade : ofModel model fileName factories = .ok file) : file.IsMade := by
  simp only [ofModel, Outcome.bind_eq_ok, Outcome.pure_eq_ok] at hMade
  obtain ⟨version, hVersion, ⟨explicit, wildcards⟩, hImports, ds, hDeclarations, _, _, rfl⟩ := hMade
  obtain ⟨hSpaces, _, hNames⟩ := FileContext.makeDeclarations_eq_ok hDeclarations
  refine ⟨?_, hSpaces, hNames⟩
  simpa [FileContext.locate] using hVersion

theorem exists_import_of_wildcard {model : Metamodel.Model} {fileName : Option String}
    {factories : List DecoratorFactory} {file : ModelFile}
    (hMade : ofModel model fileName factories = .ok file) {space : String}
    (hMem : space ∈ file.wildcardImports) : ∃ node ∈ file.model.imports, node.space = space := by
  simp only [ofModel, Outcome.bind_eq_ok, Outcome.pure_eq_ok] at hMade
  obtain ⟨_, _, ⟨explicit, wildcards⟩, hImports, _, _, _, _, rfl⟩ := hMade
  exact (FileContext.bindImports_eq_ok hImports space hMem).resolve_left List.not_mem_nil

/-- In a file no two declarations have one name, so that each of them is found. -/
theorem declaration?_of_mem {file : ModelFile} (hMade : file.IsMade) {d : Declaration}
    (hMem : d ∈ file.declarations) : file.declaration? d.name = some d :=
  Named.find?_of_mem hMade.names hMem

theorem mem_of_declaration? {file : ModelFile} {name : String} {d : Declaration}
    (hFound : file.declaration? name = some d) : d ∈ file.declarations ∧ d.name = name :=
  Named.mem_of_find? hFound

end ModelFile

end DomainModels
