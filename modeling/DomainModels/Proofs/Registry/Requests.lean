import DomainModels.Proofs.Registry.External

/-!
Where missing namespaces can be fetched.

A file speaks for a namespace with its first import of it alone. Among the files, the first one that
gives a place decides, so that a file without a place takes none away. But a place that stands at a
later import of a file is lost where the first import has none.
-/

namespace DomainModels

namespace ModelFile

variable {file : ModelFile} {space : String}

/-- The place that a file gives for a namespace: that of its first import of the namespace. -/
def placeOf? (file : ModelFile) (space : String) : Option String :=
  (file.model.imports.find? (·.space = space)).bind (·.uri)

/-- The place at an entry of one namespace. -/
def placeAt? (space : String) (entry : String × Option String) : Option String :=
  if entry.1 = space then entry.2 else none

/-- A place that a file gives stands at one of its imports. -/
theorem exists_import_of_placeOf? {uri : String} (hPlace : file.placeOf? space = some uri) :
    ∃ node ∈ file.model.imports, node.space = space ∧ node.uri = some uri := by
  obtain ⟨node, hFound, hUri⟩ := Option.bind_eq_some_iff.mp hPlace
  exact ⟨node, List.mem_of_find?_eq_some hFound, by simpa using List.find?_some hFound, hUri⟩

/-- A list without a namespace has no place for it. -/
theorem findSome?_placeAt?_eq_none {found : List (String × Option String)}
    (hNew : found.any (·.1 = space) = false) : found.findSome? (placeAt? space) = none := by
  refine List.findSome?_eq_none_iff.mpr fun entry hMem => ?_
  have hOther := List.any_eq_false.mp hNew entry hMem
  exact if_neg (by simpa using hOther)

/-- One more import of a file: a namespace that is listed already stays as it is. -/
def listed (found : List (String × Option String)) (node : Metamodel.Import) :
    List (String × Option String) :=
  if found.any (·.1 = node.space) then found else found ++ [(node.space, node.uri)]

theorem any_listed (found : List (String × Option String)) (node : Metamodel.Import) :
    (listed found node).any (·.1 = space) = (found.any (·.1 = space) || node.space = space) := by
  unfold listed
  split
  · rename_i hKnown
    by_cases hSpace : node.space = space
    · simpa [hSpace] using hKnown
    · simp [hSpace]
  · simp [List.any_append]

/-- An import matters to the namespaces that have not been listed before. -/
theorem findSome?_listed (found : List (String × Option String)) (node : Metamodel.Import) :
    (listed found node).findSome? (placeAt? space) =
      if found.any (·.1 = space) then found.findSome? (placeAt? space)
      else placeAt? space (node.space, node.uri) := by
  cases hKnown : found.any (·.1 = space) with
  | true =>
      unfold listed
      split
      · rfl
      · rename_i hNew
        have hOther : node.space ≠ space := fun hSpace => hNew (hSpace ▸ hKnown)
        simp [List.findSome?_append, placeAt?, hOther]
  | false =>
      have hNone := findSome?_placeAt?_eq_none hKnown
      unfold listed
      split
      · rename_i hListed
        have hOther : node.space ≠ space := by
          rintro rfl
          exact absurd hListed (by simp [hKnown])
        simp [hNone, placeAt?, hOther]
      · simp [List.findSome?_append, hNone]

/-- A file lists a namespace with the place that its first import of the namespace gives. -/
theorem findSome?_importedSpaces (file : ModelFile) (space : String) :
    file.importedSpaces.findSome? (placeAt? space) = file.placeOf? space := by
  have hFold (nodes : List Metamodel.Import) (found : List (String × Option String)) :
      (nodes.foldl listed found).findSome? (placeAt? space) =
        if found.any (·.1 = space) then found.findSome? (placeAt? space)
        else (nodes.find? (·.space = space)).bind (·.uri) := by
    induction nodes generalizing found with
    | nil =>
        split
        · rfl
        · rename_i hNew
          exact findSome?_placeAt?_eq_none (Bool.eq_false_iff.mpr hNew)
    | cons node rest ih =>
        rw [List.foldl_cons, ih, any_listed, findSome?_listed, List.find?_cons]
        by_cases hSpace : node.space = space
        · simp [hSpace, placeAt?]
        · rw [decide_eq_false hSpace, Bool.or_false]
          cases found.any (·.1 = space) <;> rfl
  exact hFold file.model.imports []

end ModelFile

namespace Registry

open ModelFile (placeAt?)

/-- The first place that is noted for a namespace stays. -/
theorem find?_noteMissing (table : Table (Option String)) (wanted : List (String × Option String))
    (space : String) :
    (Table.find? (wanted.foldl noteMissing table) space).getD none =
      ((Table.find? table space).getD none).or (wanted.findSome? (placeAt? space)) := by
  induction wanted generalizing table with
  | nil => simp
  | cons first rest ih =>
      rw [List.foldl_cons, ih, noteMissing, Table.find?_put, List.findSome?_cons]
      by_cases hSpace : first.1 = space
      · subst hSpace
        rw [if_pos rfl, placeAt?, if_pos rfl, Option.getD_some]
        cases (Table.find? table first.1).getD none <;> cases first.2 <;> rfl
      · rw [if_neg (Ne.symm hSpace), placeAt?, if_neg hSpace]

/-- Leaving out the namespaces that are loaded leaves the places of the others. -/
theorem findSome?_missing {files : ModelFiles} {space : String}
    (hMissing : Table.contains files space = false) (entries : List (String × Option String)) :
    (entries.filter fun entry => !Table.contains files entry.1).findSome? (placeAt? space) =
      entries.findSome? (placeAt? space) := by
  rw [← List.head?_filterMap, List.filterMap_filter, List.head?_filterMap]
  refine congrArg (entries.findSome? ·) (funext fun entry => ?_)
  by_cases hSpace : entry.1 = space
  · simp [hSpace, hMissing]
  · simp [placeAt?, hSpace]

/-- The place that is asked for is the first one that a file gives. -/
theorem uri_of_mem_missingImports {files : ModelFiles} {wanted : ExternalImport}
    (hWanted : wanted ∈ missingImports files) :
    wanted.uri = (Table.values files).findSome? (·.placeOf? wanted.space) := by
  have hMissing : Table.contains files wanted.space = false := by
    rw [Table.contains, (mem_missingImports.mp (List.mem_map_of_mem hWanted)).2]
    rfl
  obtain ⟨⟨space, uri⟩, hEntry, rfl⟩ := List.mem_map.mp hWanted
  have hFound := Table.find?_of_mem (sorted_noteMissing Table.sorted_nil) hEntry
  have hNoted := find?_noteMissing [] ((Table.values files).flatMap fun file =>
    file.importedSpaces.filter fun entry => !Table.contains files entry.1) space
  rw [← List.head?_filterMap, List.filterMap_flatMap, List.head?_flatMap] at hNoted
  refine (congrArg (·.getD none) hFound.symm).trans (hNoted.trans
    (congrArg ((Table.values files).findSome? ·) (funext fun file => ?_)))
  rw [List.head?_filterMap]
  exact (findSome?_missing hMissing _).trans (file.findSome?_importedSpaces space)

/-- What is missing is asked for in the order of the namespaces, each once. The place that goes with
a namespace is the first one that a file gives, so that there is one wherever the first import of
the namespace has one in some file, and it stands at an import of the namespace. -/
theorem requests_of_files (files : ModelFiles) :
    ((missingImports files).map (·.space)).Pairwise (· < ·) ∧
      (∀ space, space ∈ (missingImports files).map (·.space) ↔
        files.Imports space ∧ Table.find? files space = none) ∧
      ∀ wanted ∈ missingImports files,
        wanted.uri = (Table.values files).findSome? (·.placeOf? wanted.space) ∧
        (wanted.uri.isSome = true ↔
          ∃ file ∈ Table.values files, (file.placeOf? wanted.space).isSome = true) ∧
        ∀ uri, wanted.uri = some uri → ∃ file ∈ Table.values files,
          ∃ node ∈ file.model.imports, node.space = wanted.space ∧ node.uri = some uri := by
  have hSorted : ((missingImports files).map (·.space)).Pairwise (· < ·) := by
    rw [map_missingImports]
    exact List.pairwise_map.mpr (sorted_noteMissing Table.sorted_nil)
  refine ⟨hSorted, fun _ => mem_missingImports, fun wanted hWanted => ?_⟩
  have hUri := uri_of_mem_missingImports hWanted
  refine ⟨hUri, ?_, fun uri hSome => ?_⟩
  · rw [hUri]
    exact List.findSome?_isSome_iff
  · obtain ⟨file, hFile, hPlace⟩ := List.exists_of_findSome?_eq_some (hUri.symm.trans hSome)
    exact ⟨file, hFile, ModelFile.exists_import_of_placeOf? hPlace⟩

end Registry

/-! ## A model of orders

Orders import a type of the parts by its name, and then all of the parts. The second import says
where the parts can be fetched.
-/

namespace Orders

def space : String := "orders@1.0.0"

def parts : String := "parts@1.0.0"

def place : String := "https://models.example.com/parts.cto"

/-- The syntax tree of the model. -/
def model : Metamodel.Model :=
  { Metamodel.Model.empty space with
    imports := [⟨parts, .one "Bolt", none⟩, ⟨parts, .all, some place⟩]
    declarations := [⟨"Order", .classBody .concept false none none [], [], none⟩] }

/-- The model file. -/
def file : ModelFile where
  space := space
  version := ⟨"orders", some ⟨1, 0, 0, "", ""⟩⟩
  fileName := none
  checksum := ModelFile.checksumOf model
  model := model
  declarations :=
    [⟨"Order", space, .classBody ⟨.concept, false, none, none, []⟩, [], none⟩]
  explicitImports := [("Bolt", "parts@1.0.0.Bolt")]
  wildcardImports := [parts]
  decorators := []

/-- The files after the model was added without validation. -/
theorem files_run : (Session.initial.run [.addModels [⟨model, none⟩] true]).registry.files =
    [(rootNamespace, Root.file), (space, file)] := by
  have hAdded : Session.initial.registry.addFiles Session.initial.registry.files [⟨model, none⟩] =
      .ok ([(rootNamespace, Root.file), (space, file)], [file]) := rfl
  obtain ⟨index, hIndex⟩ := TypeIndex.build_lenient [(rootNamespace, Root.file), (space, file)]
  have hNext : Session.initial.registry.addModels [⟨model, none⟩] true = .ok _ :=
    Registry.addModels_of_build hAdded hIndex
  rw [Session.run_addModels hNext]

end Orders

namespace Session

/-- The second import of the parts says where they are, but they are asked for without a place. -/
theorem asked_of_orders :
    let r := (initial.run [.addModels [⟨Orders.model, none⟩] true]).registry
    Table.find? r.files Orders.space = some Orders.file ∧
      ⟨Orders.parts, .all, some Orders.place⟩ ∈ Orders.file.model.imports ∧
      Table.find? r.files Orders.parts = none ∧
      Registry.missingImports r.files = [⟨Orders.parts, none⟩] ∧
      (r.updateExternal ⟨1, fun _ _ => .ok []⟩).asked = [[⟨Orders.parts, none⟩]] := by
  intro r
  have hFiles : r.files = [(rootNamespace, Root.file), (Orders.space, Orders.file)] :=
    Orders.files_run
  have hMissing : Registry.missingImports r.files = [⟨Orders.parts, none⟩] := by
    rw [hFiles]
    rfl
  refine ⟨by rw [hFiles]; rfl, by simp [Orders.file, Orders.model], by rw [hFiles]; rfl, hMissing,
    ?_⟩
  simp only [Registry.updateExternal, Registry.fetchMissing, hMissing]
  rfl

end Session

end DomainModels
