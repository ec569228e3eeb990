import DomainModels.Index.Build
import DomainModels.Proofs.Index.Ancestry
import DomainModels.Proofs.Schema.Loaded

/-!
The stages of a build.

Each stage is described by what its results are, not by how they are found. A strict build has a
result for everything that was declared; a lenient one never fails.
-/

namespace DomainModels

open ModelFiles (Resolves Agrees Findings IsLoaded)

/-! ## Faults -/

namespace BuildMode

variable {α : Type} {mode : BuildMode}

@[simp]
theorem tolerate_ok (a : α) : mode.tolerate (.ok a) = .ok (some a) := by
  cases mode <;> rfl

/-- The results that are collected are the ones that are there. -/
theorem mem_of_collect {results : List (Except Failure α)} {found : List α}
    (hFound : mode.collect results = .ok found) {a : α} : a ∈ found ↔ .ok a ∈ results := by
  induction results generalizing found with
  | nil =>
      cases hFound
      simp
  | cons first rest ih =>
      simp only [collect, Outcome.bind_eq_ok] at hFound
      obtain ⟨kept, hKept, hFound⟩ := hFound
      cases first with
      | ok b =>
          rw [tolerate_ok] at hKept
          cases hKept
          simp only [Outcome.bind_eq_ok, Outcome.pure_eq_ok] at hFound
          obtain ⟨later, hLater, rfl⟩ := hFound
          simp [ih hLater]
      | error failure =>
          cases mode with
          | strict => cases hKept
          | lenient =>
              cases hKept
              simp [ih hFound]

/-- Strictly, every result has to be there. -/
theorem collect_strict_eq_ok {results : List (Except Failure α)} {found : List α} :
    BuildMode.strict.collect results = .ok found ↔ results = found.map .ok := by
  induction results generalizing found with
  | nil =>
      simp only [collect, Except.ok.injEq]
      constructor
      · rintro rfl
        rfl
      · intro hEmpty
        exact (List.map_eq_nil_iff.mp hEmpty.symm).symm
  | cons first rest ih =>
      cases first with
      | error failure =>
          simp only [collect, tolerate, Outcome.bind_eq_ok]
          constructor
          · rintro ⟨_, hAbsurd, _⟩
            cases hAbsurd
          · intro hAbsurd
            cases found <;> simp at hAbsurd
      | ok a =>
          simp only [collect, tolerate_ok, Outcome.bind_eq_ok, Except.ok.injEq]
          constructor
          · rintro ⟨_, rfl, hFound⟩
            simp only [Outcome.bind_eq_ok, Outcome.pure_eq_ok] at hFound
            obtain ⟨later, hLater, rfl⟩ := hFound
            rw [ih.mp hLater, List.map_cons]
          · intro hFound
            obtain ⟨_, later, rfl, hFirst, hRest⟩ := List.map_eq_cons_iff.mp hFound.symm
            cases hFirst
            refine ⟨_, rfl, ?_⟩
            simp only [Outcome.bind_eq_ok, Outcome.pure_eq_ok]
            exact ⟨later, ih.mpr hRest.symm, rfl⟩

/-- Leniently, faults are passed over. -/
theorem collect_lenient (results : List (Except Failure α)) :
    ∃ found, BuildMode.lenient.collect results = .ok found := by
  induction results with
  | nil => exact ⟨[], rfl⟩
  | cons first rest ih =>
      obtain ⟨later, hLater⟩ := ih
      cases first with
      | ok a => exact ⟨a :: later, by simp [collect, hLater]⟩
      | error failure => exact ⟨later, by simpa [collect, tolerate] using hLater⟩

/-- Where nothing is at fault, the mode makes no difference. -/
theorem collect_of_strict {results : List (Except Failure α)} {found : List α}
    (hFound : BuildMode.strict.collect results = .ok found) (mode : BuildMode) :
    mode.collect results = .ok found := by
  rw [collect_strict_eq_ok.mp hFound]
  clear hFound
  induction found with
  | nil => rfl
  | cons first rest ih => simp [collect, ih]

end BuildMode

/-! ## Classes -/

namespace TypeIndex

variable {files : ModelFiles} {mode : BuildMode}

theorem resolveEach_cons {fqn : String} {rest : List String} {known : Findings}
    {classes : List ResolvedClass} :
    resolveEach files mode (fqn :: rest) known = .ok classes ↔
      ∃ kept later, mode.tolerate (ModelFiles.resolveClass files [] fqn known).1 = .ok kept ∧
        resolveEach files mode rest (ModelFiles.resolveClass files [] fqn known).2 = .ok later ∧
        classes = kept.toList ++ later := by
  simp only [resolveEach, Outcome.bind_eq_ok]
  constructor
  · rintro ⟨kept, hKept, hClasses⟩
    cases kept with
    | none => exact ⟨none, classes, hKept, hClasses, rfl⟩
    | some c =>
        simp only [Outcome.bind_eq_ok, Outcome.pure_eq_ok] at hClasses
        obtain ⟨later, hLater, rfl⟩ := hClasses
        exact ⟨some c, later, hKept, hLater, rfl⟩
  · rintro ⟨kept, later, hKept, hLater, rfl⟩
    refine ⟨kept, hKept, ?_⟩
    cases kept with
    | none => exact hLater
    | some c => simp [hLater]

/-- A class that can be resolved comes before the ones of the later names. -/
theorem resolveEach_cons_ok {fqn : String} {rest : List String} {known known' : Findings}
    {c : ResolvedClass} {later : List ResolvedClass}
    (hFirst : ModelFiles.resolveClass files [] fqn known = (.ok c, known'))
    (hRest : resolveEach files mode rest known' = .ok later) :
    resolveEach files mode (fqn :: rest) known = .ok (c :: later) := by
  refine resolveEach_cons.mpr ⟨some c, later, ?_, ?_, rfl⟩
  · rw [hFirst]
    exact BuildMode.tolerate_ok c
  · rw [hFirst]
    exact hRest

/-- The classes that come of a list of names are what these are resolved to. -/
theorem mem_of_resolveEach {names : List String} {known : Findings} {classes : List ResolvedClass}
    (hKnown : Agrees files known) (hClasses : resolveEach files mode names known = .ok classes)
    {c : ResolvedClass} : c ∈ classes ↔ ∃ name ∈ names, Resolves files name c := by
  induction names generalizing known classes with
  | nil =>
      cases hClasses
      simp
  | cons first rest ih =>
      obtain ⟨kept, later, hKept, hLater, rfl⟩ := resolveEach_cons.mp hClasses
      obtain ⟨hFirst, hAgrees⟩ := ModelFiles.resolveClass_first hKnown first
      have hHead : c ∈ kept.toList ↔ Resolves files first c := by
        rw [← hFirst c]
        cases hResult : (ModelFiles.resolveClass files [] first known).1 with
        | ok a =>
            rw [hResult, BuildMode.tolerate_ok] at hKept
            cases hKept
            simp [eq_comm]
        | error failure =>
            rw [hResult] at hKept
            cases mode <;> cases hKept
            simp
      simp only [List.mem_append, hHead, ih hAgrees hLater, List.mem_cons, exists_eq_or_imp]

/-- Strictly, every name has to be resolved. -/
theorem resolves_of_resolveEach {names : List String} {known : Findings}
    {classes : List ResolvedClass} (hKnown : Agrees files known)
    (hClasses : resolveEach files .strict names known = .ok classes) :
    ∀ name ∈ names, ∃ c, Resolves files name c := by
  induction names generalizing known classes with
  | nil => simp
  | cons first rest ih =>
      obtain ⟨kept, later, hKept, hLater, rfl⟩ := resolveEach_cons.mp hClasses
      obtain ⟨hFirst, hAgrees⟩ := ModelFiles.resolveClass_first hKnown first
      intro name hMem
      rcases List.mem_cons.mp hMem with rfl | hMem
      · cases hResult : (ModelFiles.resolveClass files [] name known).1 with
        | ok a => exact ⟨a, (hFirst a).mp hResult⟩
        | error failure =>
            rw [hResult] at hKept
            cases hKept
      · exact ih hAgrees hLater name hMem

/-- Leniently, the search never fails. -/
theorem resolveEach_lenient (files : ModelFiles) (names : List String) (known : Findings) :
    ∃ classes, resolveEach files .lenient names known = .ok classes := by
  induction names generalizing known with
  | nil => exact ⟨[], rfl⟩
  | cons first rest ih =>
      obtain ⟨later, hLater⟩ := ih (ModelFiles.resolveClass files [] first known).2
      cases hResult : (ModelFiles.resolveClass files [] first known).1 with
      | ok a => exact ⟨_, resolveEach_cons.mpr ⟨some a, later, by rw [hResult]; rfl, hLater, rfl⟩⟩
      | error failure =>
          exact ⟨_, resolveEach_cons.mpr ⟨none, later, by rw [hResult]; rfl, hLater, rfl⟩⟩

theorem resolveEach_of_strict {names : List String} {known : Findings}
    {classes : List ResolvedClass}
    (hClasses : resolveEach files .strict names known = .ok classes) (mode : BuildMode) :
    resolveEach files mode names known = .ok classes := by
  induction names generalizing known classes with
  | nil => exact hClasses
  | cons first rest ih =>
      obtain ⟨kept, later, hKept, hLater, rfl⟩ := resolveEach_cons.mp hClasses
      refine resolveEach_cons.mpr ⟨kept, later, ?_, ih hLater, rfl⟩
      cases hResult : (ModelFiles.resolveClass files [] first known).1 with
      | ok a =>
          rw [hResult] at hKept
          rw [BuildMode.tolerate_ok] at hKept ⊢
          exact hKept
      | error failure =>
          rw [hResult] at hKept
          cases hKept

/-! ## Arranging -/

theorem mem_lastOccurrences {names : List String} {name : String} :
    name ∈ lastOccurrences names ↔ name ∈ names := by
  induction names with
  | nil => simp [lastOccurrences]
  | cons first rest ih =>
      unfold lastOccurrences
      split
      · rename_i hLater
        have hFirst : first ∈ rest := by simpa using hLater
        rw [ih, List.mem_cons]
        constructor
        · exact .inr
        · rintro (rfl | hMem)
          · exact hFirst
          · exact hMem
      · rw [List.mem_cons, List.mem_cons, ih]

theorem nodup_lastOccurrences (names : List String) : (lastOccurrences names).Nodup := by
  induction names with
  | nil => exact List.nodup_nil
  | cons first rest ih =>
      unfold lastOccurrences
      split
      · exact ih
      · rename_i hNew
        refine List.nodup_cons.mpr ⟨?_, ih⟩
        rw [mem_lastOccurrences]
        simpa using hNew

theorem lastOccurrences_of_nodup {names : List String} (hNodup : names.Nodup) :
    lastOccurrences names = names := by
  induction names with
  | nil => rfl
  | cons first rest ih =>
      obtain ⟨hNew, hRest⟩ := List.nodup_cons.mp hNodup
      rw [lastOccurrences, if_neg (by simpa using hNew), ih hRest]

section
variable {α : Type} {nameOf : α → String} {names : List String} {items : List α}

/-- Of what bears a name, one item is arranged. -/
theorem mem_arrange {a : α} : a ∈ arrange nameOf names items ↔
    nameOf a ∈ names ∧ items.reverse.find? (nameOf · = nameOf a) = some a := by
  simp only [arrange, List.mem_filterMap, mem_lastOccurrences]
  constructor
  · rintro ⟨name, hName, hFound⟩
    obtain ⟨_, hSame⟩ := Named.mem_of_find? hFound
    subst hSame
    exact ⟨hName, hFound⟩
  · rintro ⟨hName, hFound⟩
    exact ⟨nameOf a, hName, hFound⟩

theorem mem_of_mem_arrange {a : α} (hMem : a ∈ arrange nameOf names items) :
    nameOf a ∈ names ∧ a ∈ items := by
  obtain ⟨hName, hFound⟩ := mem_arrange.mp hMem
  exact ⟨hName, List.mem_reverse.mp (List.mem_of_find?_eq_some hFound)⟩

/-- Where no two items bear one name, all of them are arranged. -/
theorem mem_arrange_of_mem {a : α} (hName : nameOf a ∈ names) (hMem : a ∈ items)
    (hUnique : ∀ b ∈ items, nameOf b = nameOf a → b = a) : a ∈ arrange nameOf names items := by
  refine mem_arrange.mpr ⟨hName, ?_⟩
  cases hFound : items.reverse.find? (nameOf · = nameOf a) with
  | none =>
      have hNone := List.find?_eq_none.mp hFound a (List.mem_reverse.mpr hMem)
      simp at hNone
  | some b =>
      obtain ⟨hFoundMem, hSame⟩ := Named.mem_of_find? hFound
      rw [hUnique b (List.mem_reverse.mp hFoundMem) hSame]

theorem map_arrange_sublist : ((arrange nameOf names items).map nameOf).Sublist
    (lastOccurrences names) := by
  have hName : ∀ name a, items.reverse.find? (nameOf · = name) = some a → nameOf a = id name :=
    fun name a hFound => (Named.mem_of_find? hFound).2
  simpa [arrange] using Named.map_filterMap_sublist hName (lastOccurrences names)

/-- No name is borne twice by what is arranged. -/
theorem nodup_arrange : ((arrange nameOf names items).map nameOf).Nodup :=
  map_arrange_sublist.nodup (nodup_lastOccurrences names)

end

/-! ## Relationships -/

/-- Nothing is left out of an index without faults. -/
theorem checkPointers_of_no_faults (mode : BuildMode) {index : TypeIndex}
    (hFaults : index.pointerFaults = []) : checkPointers mode index = .ok index := by
  have hWithout : index.without [] = index := by
    obtain ⟨classes, maps⟩ := index
    simp [without]
  simp only [checkPointers, hFaults, List.map_nil, hWithout]
  rfl

/-- Where nothing points, no pointer is at fault. -/
theorem checkPointers_of_no_pointers (mode : BuildMode) {index : TypeIndex}
    (hClasses : ∀ c ∈ index.classes, ∀ p ∈ c.properties, p.type.isRelationship = false)
    (hMaps : ∀ m ∈ index.maps, m.value.type.isRelationship = false) :
    checkPointers mode index = .ok index := by
  have hNone (p : ResolvedProperty) (hType : p.type.isRelationship = false) :
      index.pointerFault? p = none := by
    unfold pointerFault?
    split
    · rename_i target hTarget
      rw [hTarget] at hType
      cases hType
    · rfl
  have hOfClasses : (index.classes.flatMap fun c =>
      c.ownProperties.filterMap fun p => (index.pointerFault? p).map fun f => (c.fqn, f)) = [] := by
    refine List.flatMap_eq_nil_iff.mpr fun c hMem => List.filterMap_eq_nil_iff.mpr fun p hP => ?_
    rw [hNone p (hClasses c hMem p (List.mem_of_mem_filter hP))]
    rfl
  have hOfMaps : (index.maps.filterMap fun m =>
      (index.pointerFault? m.value).map fun f => (m.fqn, f)) = [] := by
    refine List.filterMap_eq_nil_iff.mpr fun m hMem => ?_
    rw [hNone m.value (hMaps m hMem)]
    rfl
  refine checkPointers_of_no_faults mode ?_
  simp only [pointerFaults, hOfClasses, hOfMaps]
  exact List.mergeSort_nil

/-- Strictly, there are no faults. -/
theorem checkPointers_strict {index next : TypeIndex}
    (hNext : checkPointers .strict index = .ok next) : index.pointerFaults = [] ∧ next = index := by
  have hNone : index.pointerFaults = [] := by
    simp only [checkPointers, Outcome.bind_eq_ok] at hNext
    obtain ⟨units, hFound, _⟩ := hNext
    have hAll := BuildMode.collect_strict_eq_ok.mp hFound
    cases hFaults : index.pointerFaults with
    | nil => rfl
    | cons first rest =>
        rw [hFaults] at hAll
        cases units <;> simp at hAll
  rw [checkPointers_of_no_faults .strict hNone] at hNext
  exact ⟨hNone, (Except.ok.inj hNext).symm⟩

/-- Leniently, what is at fault is left out. -/
theorem checkPointers_lenient (index : TypeIndex) :
    checkPointers .lenient index = .ok (index.without (index.pointerFaults.map (·.1))) := by
  simp only [checkPointers]
  generalize (List.map _ index.pointerFaults : List (Except Failure Unit)) = results
  obtain ⟨units, hFound⟩ := BuildMode.collect_lenient results
  rw [hFound]
  rfl

/-! ## The whole build -/

/-- A build succeeds when its stages do. -/
theorem build_eq_ok {index : TypeIndex} :
    build files mode = .ok index ↔ ∃ checked classes maps,
      mode.collect ((Table.values files).map fun file => file.check files) = .ok checked ∧
      resolveClasses files mode = .ok classes ∧ resolveMaps files mode = .ok maps ∧
      checkPointers mode
        { classes := arrange (·.fqn) (declaredNames files) classes
          maps := arrange (·.fqn) (declaredNames files) maps } = .ok index := by
  simp only [build, Outcome.bind_eq_ok]
  constructor
  · rintro ⟨checked, hChecked, classes, hClasses, maps, hMaps, hIndex⟩
    exact ⟨checked, classes, maps, hChecked, hClasses, hMaps, hIndex⟩
  · rintro ⟨checked, classes, maps, hChecked, hClasses, hMaps, hIndex⟩
    exact ⟨checked, hChecked, classes, hClasses, maps, hMaps, hIndex⟩

/-- A lenient build never fails. -/
theorem build_lenient (files : ModelFiles) : ∃ index, build files .lenient = .ok index := by
  obtain ⟨checked, hChecked⟩ := BuildMode.collect_lenient
    ((Table.values files).map fun file => file.check files)
  obtain ⟨classes, hClasses⟩ := resolveEach_lenient files (classNames files) []
  obtain ⟨maps, hMaps⟩ : ∃ maps, resolveMaps files .lenient = .ok maps :=
    BuildMode.collect_lenient _
  exact ⟨_, build_eq_ok.mpr ⟨checked, classes, maps, hChecked, hClasses, hMaps,
    checkPointers_lenient _⟩⟩

/-- What can be built strictly comes to the same index in both modes. -/
theorem build_of_strict {index : TypeIndex} (hIndex : build files .strict = .ok index)
    (mode : BuildMode) : build files mode = .ok index := by
  obtain ⟨checked, classes, maps, hChecked, hClasses, hMaps, hPointers⟩ := build_eq_ok.mp hIndex
  obtain ⟨hNone, rfl⟩ := checkPointers_strict hPointers
  exact build_eq_ok.mpr ⟨checked, classes, maps, BuildMode.collect_of_strict hChecked mode,
    resolveEach_of_strict hClasses mode, BuildMode.collect_of_strict hMaps mode,
    checkPointers_of_no_faults mode hNone⟩

end TypeIndex

end DomainModels
