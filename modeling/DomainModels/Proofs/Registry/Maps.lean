import DomainModels.Proofs.Registry.References

/-!
The maps of an index.

Where names are simple, a map is resolved from the declaration that is found under its name. Hence
an index has every map that can be resolved, except for those whose values point astray.
-/

namespace DomainModels

open ModelFiles (IsLoaded Resolves HasSimpleNames Carries)

namespace TypeIndex

variable {files before after : ModelFiles} {mode : BuildMode} {index : TypeIndex}
  {m other : ResolvedMap}

/-- A map is resolved from the declaration of its name. -/
theorem ResolvesMap.exists_find? (hFiles : IsLoaded files) (hNames : HasSimpleNames files)
    (hResolves : ResolvesMap files m) : ∃ file d key value,
      ModelFiles.find? files m.fqn = some (file, d) ∧ d.body = .mapBody key value ∧
      file.resolveMap files d key value = .ok m := by
  obtain ⟨file, d, key, value, hDeclared, hBody, hResolved⟩ := hResolves
  refine ⟨file, d, key, value, ?_, hBody, hResolved⟩
  rw [(resolveMap_eq_ok hResolved).1]
  exact hFiles.find?_fqn hNames hDeclared

theorem ResolvesMap.unique (hFiles : IsLoaded files) (hNames : HasSimpleNames files)
    (hResolves : ResolvesMap files m) (hOther : ResolvesMap files other) (hName : other.fqn = m.fqn) :
    other = m := by
  obtain ⟨_, _, _, _, hFound, hBody, hResolved⟩ := hResolves.exists_find? hFiles hNames
  obtain ⟨_, _, _, _, hFound', hBody', hResolved'⟩ := hOther.exists_find? hFiles hNames
  rw [hName] at hFound'
  cases hFound.symm.trans hFound'
  cases hBody.symm.trans hBody'
  exact Except.ok.inj (hResolved'.symm.trans hResolved)

/-- No class bears the name of a map. -/
theorem ResolvesMap.not_resolves (hFiles : IsLoaded files) (hNames : HasSimpleNames files)
    (hResolves : ResolvesMap files m) (c : ResolvedClass) : ¬ Resolves files m.fqn c := by
  intro hClass
  obtain ⟨_, _, _, _, hFound, hBody, _⟩ := hResolves.exists_find? hFiles hNames
  obtain ⟨_, _, _, _, hClassFound, _⟩ := hClass.exists_declaration
  obtain ⟨hSame, hKind⟩ := ModelFiles.findClass_eq_ok.mp hClassFound
  cases hFound.symm.trans hSame
  rw [Declaration.class?_eq_some, hBody] at hKind
  cases hKind

/-- A map is resolved to the same wherever its declaration carries over. -/
theorem ResolvesMap.carry (hBefore : IsLoaded before) (hAfter : IsLoaded after)
    (hNames : HasSimpleNames before) (hCarries : Carries before after m.fqn)
    (hResolves : ResolvesMap before m) : ResolvesMap after m := by
  obtain ⟨file, d, key, value, hFound, hBody, hResolved⟩ := hResolves.exists_find? hBefore hNames
  obtain ⟨hSame, hKeeps⟩ := hCarries file d hFound
  exact ⟨file, d, key, value, hAfter.mem_of_find? hSame, hBody,
    ModelFiles.resolveMap_of_keeps hBody hKeeps hResolved⟩

/-- The maps of an index are those that can be resolved and do not point astray. -/
theorem exists_isChecked_maps (hFiles : IsLoaded files) (hNames : HasSimpleNames files)
    (hBuild : build files mode = .ok index) : ∃ whole, IsChecked files mode whole index ∧
      ∀ fqn m, index.map? fqn = some m ↔
        ResolvesMap files m ∧ m.fqn = fqn ∧ ¬ whole.PointsAstray fqn := by
  obtain ⟨_, classes, maps, _, hClasses, hMaps, hPointers⟩ := build_eq_ok.mp hBuild
  have hWhole := isWhole_of_resolved hFiles hClasses hMaps
  have hChecked := hWhole.isChecked hPointers
  refine ⟨_, hChecked, fun fqn m => ⟨fun hFound => ?_, fun ⟨hResolves, hName, hFine⟩ => ?_⟩⟩
  · obtain ⟨hMem, hName⟩ := Named.mem_of_find? hFound
    obtain ⟨hMem, hFine⟩ := (hChecked.maps m).mp hMem
    exact ⟨hWhole.maps m hMem, hName, hName ▸ hFine⟩
  · -- No other map has the name, so that this one is arranged, and found.
    obtain ⟨_, d, _, _, hDeclared, _, hResolved⟩ := id hResolves
    have hArranged : m ∈ arrange (·.fqn) (declaredNames files) maps := by
      refine mem_arrange_of_mem ?_ ((mem_of_resolveMaps hMaps).mpr hResolves) fun b hB hSame => ?_
      · rw [(resolveMap_eq_ok hResolved).1]
        exact List.mem_map.mpr ⟨_, hDeclared, rfl⟩
      · exact hResolves.unique hFiles hNames ((mem_of_resolveMaps hMaps).mp hB) hSame
    have hMem : m ∈ index.maps := (hChecked.maps m).mpr ⟨hArranged, hName ▸ hFine⟩
    cases hFound : index.map? fqn with
    | none => exact (List.find?_eq_none.mp hFound m hMem (by simpa using hName)).elim
    | some found =>
        obtain ⟨hFoundMem, hFoundName⟩ := Named.mem_of_find? hFound
        have hFoundResolves := hWhole.maps found ((hChecked.maps found).mp hFoundMem).1
        rw [hResolves.unique hFiles hNames hFoundResolves (hFoundName.trans hName.symm)]

/-- A strict index has every map that can be resolved. -/
theorem map?_eq_some_iff (hFiles : IsLoaded files) (hNames : HasSimpleNames files)
    (hBuild : build files .strict = .ok index) {fqn : String} :
    index.map? fqn = some m ↔ ResolvesMap files m ∧ m.fqn = fqn := by
  obtain ⟨whole, hChecked, hMaps⟩ := exists_isChecked_maps hFiles hNames hBuild
  simp [hMaps, hChecked.strict rfl fqn]

end TypeIndex

end DomainModels
