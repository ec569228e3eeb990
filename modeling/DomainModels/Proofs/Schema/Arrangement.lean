import Mathlib.Data.List.Perm.Basic
import DomainModels.Proofs.Schema.ModelFile

/-!
Models whose declarations come in another order.

The checks of a model look at each declaration by itself, and at the names of all of them. So a
model passes them in every order of its declarations, and the files that are made of it differ in
this order alone.
-/

namespace DomainModels

namespace FileContext

variable {ctx : FileContext} {imports : Table String} {seen : List String}
  {nodes other : List Metamodel.Declaration} {ds : List Declaration}

/-- Declarations are made one by one. Their names have to be free and to differ from each other. -/
theorem makeDeclarations_iff : ctx.makeDeclarations imports seen nodes = .ok ds ↔
    List.Forall₂ (fun node d => ctx.makeDeclaration node = .ok d) nodes ds ∧
      (nodes.map (·.name)).Nodup ∧
      ∀ node ∈ nodes, node.name ∉ seen ∧ imports.find? node.name = none := by
  induction nodes generalizing seen ds with
  | nil => simp [makeDeclarations, eq_comm]
  | cons node rest ih =>
      rw [makeDeclarations_cons, List.map_cons, List.nodup_cons, List.forall_mem_cons]
      constructor
      · rintro ⟨d, later, hMade, hNew, hFree, hLater, rfl⟩
        obtain ⟨hEach, hNames, hRest⟩ := ih.mp hLater
        refine ⟨.cons hMade hEach, ⟨?_, hNames⟩, ⟨hNew, hFree⟩, ?_⟩
        · intro hMem
          obtain ⟨same, hSame, hName⟩ := List.mem_map.mp hMem
          exact (hRest same hSame).1 (hName ▸ List.mem_cons_self)
        · exact fun same hSame =>
            (hRest same hSame).imp_left fun h hSeen => h (List.mem_cons_of_mem _ hSeen)
      · rintro ⟨hEach, ⟨hFirst, hNames⟩, ⟨hNew, hFree⟩, hRest⟩
        obtain ⟨d, later, hMade, hLater, rfl⟩ := List.forall₂_cons_left_iff.mp hEach
        refine ⟨d, later, hMade, hNew, hFree, ih.mpr ⟨hLater, hNames, ?_⟩, rfl⟩
        intro same hSame
        refine (hRest same hSame).imp_left fun h hSeen => ?_
        rcases List.mem_cons.mp hSeen with hName | hSeen
        · exact hFirst (hName ▸ List.mem_map_of_mem hSame)
        · exact h hSeen

/-- Declarations can be made in every order. -/
theorem makeDeclarations_perm (hPerm : nodes.Perm other)
    (hMade : ctx.makeDeclarations imports seen nodes = .ok ds) :
    ∃ rearranged, ctx.makeDeclarations imports seen other = .ok rearranged ∧
      ds.Perm rearranged := by
  obtain ⟨hEach, hNames, hFree⟩ := makeDeclarations_iff.mp hMade
  obtain ⟨rearranged, hOther, hSame⟩ := List.perm_comp_forall₂ hPerm.symm hEach
  refine ⟨rearranged, makeDeclarations_iff.mpr ⟨hOther, ?_, ?_⟩, hSame.symm⟩
  · exact (hPerm.map _).nodup_iff.mp hNames
  · exact fun node hMem => hFree node (hPerm.mem_iff.mpr hMem)

end FileContext

namespace ModelFile

/-- Two files that differ in the order of their declarations, and in what is kept of the text of
their models. -/
structure Rearranges (file other : ModelFile) : Prop where
  space : file.space = other.space
  fileName : file.fileName = other.fileName
  imports : file.model.imports = other.model.imports
  explicitImports : file.explicitImports = other.explicitImports
  wildcardImports : file.wildcardImports = other.wildcardImports
  decorators : file.decorators = other.decorators
  declared : ∀ name, file.declaration? name = other.declaration? name
  declarations : file.declarations.Perm other.declarations

variable {file other : ModelFile}

theorem Rearranges.refl (file : ModelFile) : file.Rearranges file :=
  ⟨rfl, rfl, rfl, rfl, rfl, rfl, fun _ => rfl, .refl _⟩

theorem Rearranges.symm (h : file.Rearranges other) : other.Rearranges file :=
  ⟨h.space.symm, h.fileName.symm, h.imports.symm, h.explicitImports.symm, h.wildcardImports.symm,
    h.decorators.symm, fun name => (h.declared name).symm, h.declarations.symm⟩

/-- Where no two declarations share a name, the order does not matter for finding one. -/
theorem declaration?_of_perm (hMade : file.IsMade)
    (hPerm : file.declarations.Perm other.declarations) (name : String) :
    file.declaration? name = other.declaration? name :=
  Named.find?_perm hMade.names hPerm name

/-- A model passes its checks in every order of its declarations. -/
theorem ofModel_perm {model : Metamodel.Model} {fileName : Option String}
    {factories : List DecoratorFactory} {declarations : List Metamodel.Declaration}
    (hPerm : model.declarations.Perm declarations)
    (hMade : ofModel model fileName factories = .ok file) :
    ∃ other, ofModel { model with declarations } fileName factories = .ok other ∧
      file.Rearranges other := by
  have hIsMade := isMade_of_ofModel hMade
  simp only [ofModel, Outcome.bind_eq_ok, Outcome.pure_eq_ok] at hMade
  obtain ⟨version, hVersion, imported, hImports, ds, hDeclarations, decorators, hDecorators, rfl⟩ :=
    hMade
  obtain ⟨rearranged, hRearranged, hSame⟩ := FileContext.makeDeclarations_perm hPerm hDeclarations
  let other : ModelFile :=
    { space := model.space, version, fileName, checksum := checksumOf { model with declarations }
      model := { model with declarations }, declarations := rearranged
      explicitImports := imported.1, wildcardImports := imported.2, decorators }
  refine ⟨other, ?_, ⟨rfl, rfl, rfl, rfl, rfl, rfl, declaration?_of_perm hIsMade hSame, hSame⟩⟩
  simp only [ofModel, Outcome.bind_eq_ok, Outcome.pure_eq_ok]
  exact ⟨version, hVersion, imported, hImports, rearranged, hRearranged, decorators, hDecorators,
    rfl⟩

end ModelFile

end DomainModels
