import Mathlib.Data.Finset.Card
import Mathlib.Data.Finset.Filter
import DomainModels.Proofs.Registry.Removal

/-!
Loading what is imported from a source that knows a fixed list of models.

`Refreshes` is the loop that asks the source, without a bound on the number of requests. Every
answer that brings one of the missing namespaces leaves fewer namespaces of the list to be loaded,
so that the loop ends by itself. What it leaves behind is followed from round to round: the
namespaces that came stand for the models that the list has for them last, and all others are as
before.
-/

namespace DomainModels

/-- The last one among some models that belongs to a namespace. -/
def lastFor (space : String) (inputs : List ModelInput) : Option ModelInput :=
  (inputs.filter fun input => input.model.space = space).getLast?

theorem lastFor_cons (space : String) (input : ModelInput) (rest : List ModelInput) :
    lastFor space (input :: rest) =
      (lastFor space rest).or (if input.model.space = space then some input else none) := by
  unfold lastFor
  rw [List.filter_cons]
  by_cases hSpace : input.model.space = space
  · simp only [hSpace, decide_true, if_true, List.getLast?_cons]
    cases (rest.filter fun input => decide (input.model.space = space)).getLast? <;> rfl
  · simp [hSpace]

theorem lastFor_eq_none {space : String} {inputs : List ModelInput} :
    lastFor space inputs = none ↔ ∀ input ∈ inputs, input.model.space ≠ space := by
  simp [lastFor]

theorem mem_of_lastFor {space : String} {inputs : List ModelInput} {input : ModelInput}
    (hLast : lastFor space inputs = some input) : input ∈ inputs ∧ input.model.space = space := by
  simpa using List.mem_filter.mp (List.mem_of_getLast? hLast)

/-- A source that knows some models and always answers with all of them, or always with those that
belong to the namespaces it is asked for. -/
def ExternalSource.AnswersFrom (source : ExternalSource) (models : List ModelInput) : Prop :=
  (∀ n request, source.fetch n request = .ok models) ∨
    ∀ n request, source.fetch n request =
      .ok (models.filter fun input => request.any (·.space = input.model.space))

/-- What an answer has for a namespace last is what the source has for it last. -/
theorem ExternalSource.AnswersFrom.lastFor {source : ExternalSource} {models : List ModelInput}
    (hSource : source.AnswersFrom models) (n : Nat) (request : List ExternalImport) :
    ∃ inputs, source.fetch n request = .ok inputs ∧
      ∀ space input, lastFor space inputs = some input →
        DomainModels.lastFor space models = some input := by
  rcases hSource with hAll | hAsked
  · exact ⟨models, hAll n request, fun _ _ h => h⟩
  · refine ⟨_, hAsked n request, ?_⟩
    intro space input hLast
    obtain ⟨hMem, rfl⟩ := mem_of_lastFor hLast
    have hWanted := (List.mem_filter.mp hMem).2
    rw [← hLast, DomainModels.lastFor, DomainModels.lastFor, List.filter_filter]
    congr 1
    refine List.filter_congr fun other _ => ?_
    by_cases hSame : other.model.space = input.model.space
    · simp [hSame, hWanted]
    · simp [hSame]

/-! ## Requests -/

/-- One of the files imports the namespace. -/
def ModelFiles.Imports (files : ModelFiles) (space : String) : Prop :=
  ∃ file ∈ Table.values files, ∃ node ∈ file.model.imports, node.space = space

/-- The namespaces that are noted for a file are those that its model imports. -/
theorem ModelFile.mem_importedSpaces {file : ModelFile} {space : String} :
    space ∈ file.importedSpaces.map (·.1) ↔ ∃ node ∈ file.model.imports, node.space = space := by
  have hFold : ∀ (nodes : List Metamodel.Import) (found : List (String × Option String)),
      space ∈ (nodes.foldl (fun found node =>
        if found.any (·.1 = node.space) then found else found ++ [(node.space, node.uri)])
        found).map (·.1) ↔ space ∈ found.map (·.1) ∨ ∃ node ∈ nodes, node.space = space := by
    intro nodes
    induction nodes with
    | nil => simp
    | cons node rest ih =>
        intro found
        rw [List.foldl_cons, ih]
        split
        · rename_i hFound
          have hKnown : node.space ∈ found.map (·.1) := by simpa using hFound
          rw [List.exists_mem_cons_iff]
          constructor
          · exact Or.imp_right .inr
          · rintro (hMem | rfl | hLater)
            · exact .inl hMem
            · exact .inl hKnown
            · exact .inr hLater
        · rw [List.map_append, List.mem_append, or_assoc, List.exists_mem_cons_iff]
          simp [eq_comm]
  exact (hFold file.model.imports []).trans (by simp)

namespace Registry

theorem sorted_noteMissing {table : Table (Option String)}
    {wanted : List (String × Option String)} (hSorted : Table.Sorted table) :
    Table.Sorted (wanted.foldl noteMissing table) := by
  induction wanted generalizing table with
  | nil => exact hSorted
  | cons first rest ih => exact ih (Table.sorted_put hSorted _ _)

theorem mem_keys_noteMissing {table : Table (Option String)}
    {wanted : List (String × Option String)} {space : String} :
    space ∈ Table.keys (wanted.foldl noteMissing table) ↔
      space ∈ Table.keys table ∨ space ∈ wanted.map (·.1) := by
  induction wanted generalizing table with
  | nil => simp
  | cons first rest ih =>
      rw [List.foldl_cons, ih, noteMissing, Table.mem_keys_put, List.map_cons, List.mem_cons,
        or_comm (a := space = first.1), or_assoc]

/-- A request for what is missing among some files: it asks for something, in the order of the
namespaces, each once, and it asks for what is imported and not there. -/
structure Asks (files : ModelFiles) (request : List ExternalImport) : Prop where
  nonempty : request ≠ []
  sorted : (request.map (·.space)).Pairwise (· < ·)
  missing : ∀ space, space ∈ request.map (·.space) ↔
    files.Imports space ∧ Table.find? files space = none

theorem map_missingImports (files : ModelFiles) :
    (missingImports files).map (·.space) =
      Table.keys (((Table.values files).flatMap fun file =>
        file.importedSpaces.filter fun (space, _) => !Table.contains files space).foldl
          noteMissing []) := by
  simp [missingImports, Table.keys]

theorem mem_missingImports {files : ModelFiles} {space : String} :
    space ∈ (missingImports files).map (·.space) ↔
      files.Imports space ∧ Table.find? files space = none := by
  rw [map_missingImports, mem_keys_noteMissing]
  have hNone : Table.contains files space = false ↔ Table.find? files space = none := by
    rw [Table.contains, Option.isSome_eq_false_iff, Option.isNone_iff_eq_none]
  constructor
  · rintro (hEmpty | hMem)
    · cases hEmpty
    · obtain ⟨⟨_, uri⟩, hWanted, rfl⟩ := List.mem_map.mp hMem
      obtain ⟨file, hFile, hWanted⟩ := List.mem_flatMap.mp hWanted
      obtain ⟨hImported, hMissing⟩ := List.mem_filter.mp hWanted
      refine ⟨⟨file, hFile, ?_⟩, hNone.mp (by simpa using hMissing)⟩
      exact ModelFile.mem_importedSpaces.mp (List.mem_map_of_mem hImported)
  · rintro ⟨⟨file, hFile, hNodes⟩, hMissing⟩
    obtain ⟨⟨_, uri⟩, hImported, rfl⟩ := List.mem_map.mp (ModelFile.mem_importedSpaces.mpr hNodes)
    refine .inr (List.mem_map.mpr ⟨(_, uri), List.mem_flatMap.mpr ⟨file, hFile, ?_⟩, rfl⟩)
    exact List.mem_filter.mpr ⟨hImported, by simpa using hNone.mpr hMissing⟩

/-- What is missing is asked for, and nothing else. -/
theorem asks_missingImports {files : ModelFiles} (hSome : missingImports files ≠ []) :
    Asks files (missingImports files) where
  nonempty := hSome
  sorted := by
    rw [map_missingImports]
    exact List.pairwise_map.mpr (sorted_noteMissing Table.sorted_nil)
  missing _ := mem_missingImports

/-! ## Answers -/

variable {r : Registry} {source : ExternalSource} {models : List ModelInput}

theorem makeFile_space {input : ModelInput} {file : ModelFile}
    (hMade : r.makeFile input = .ok file) : file.space = input.model.space := by
  simp only [makeFile, ModelFile.ofModel, Outcome.bind_eq_ok, Outcome.pure_eq_ok] at hMade
  obtain ⟨_, _, _, _, _, _, _, _, rfl⟩ := hMade
  rfl

theorem mem_noted {fetched : List String} {space other : String} :
    other ∈ (if fetched.contains space then fetched else fetched ++ [space]) ↔
      other ∈ fetched ∨ other = space := by
  split
  · rename_i hKnown
    exact ⟨.inl, fun h => h.elim id fun hSame => hSame ▸ List.contains_iff_mem.mp hKnown⟩
  · simp

theorem nodup_noted {fetched : List String} (hNodup : fetched.Nodup) (space : String) :
    (if fetched.contains space then fetched else fetched ++ [space]).Nodup := by
  split
  · exact hNodup
  · rename_i hNew
    rw [List.nodup_append']
    exact ⟨hNodup, List.nodup_singleton space, by simpa using hNew⟩

/-- What is left when an answer has been entered: the namespaces that it has models for stand for
the last of them, and are noted once. -/
structure Entered (r : Registry) (request : List ExternalImport) (inputs : List ModelInput)
    (files : ModelFiles) (fetched : List String) (progress : Bool)
    (after : ModelFiles × List String × Bool) : Prop where
  supplied : ∀ space input, lastFor space inputs = some input →
    ∃ file, r.makeFile input = .ok file ∧ Table.find? after.1 space = some file
  kept : ∀ space, lastFor space inputs = none → Table.find? after.1 space = Table.find? files space
  noted : ∀ space, space ∈ after.2.1 ↔ space ∈ fetched ∨ lastFor space inputs ≠ none
  once : fetched.Nodup → after.2.1.Nodup
  progress : after.2.2 = (progress ||
    inputs.any fun input => request.any (·.space = input.model.space))

/-- One more model at the front is entered before the others, which may replace it. -/
theorem Entered.cons {request : List ExternalImport} {input : ModelInput} {rest : List ModelInput}
    {file : ModelFile} {files : ModelFiles} {fetched : List String} {progress : Bool}
    {after : ModelFiles × List String × Bool} (hMade : r.makeFile input = .ok file)
    (hRest : Entered r request rest (Table.put input.model.space file files)
      (if fetched.contains input.model.space then fetched else fetched ++ [input.model.space])
      (progress || request.any (·.space = input.model.space)) after) :
    Entered r request (input :: rest) files fetched progress after where
  supplied := by
    intro space last hLast
    rw [lastFor_cons] at hLast
    cases hLater : lastFor space rest with
    | some later =>
        rw [hLater, Option.some_or] at hLast
        exact hRest.supplied space last (hLater.trans hLast)
    | none =>
        rw [hLater, Option.none_or] at hLast
        split at hLast
        · rename_i hSpace
          cases hLast
          refine ⟨file, hMade, ?_⟩
          rw [hRest.kept space hLater, Table.find?_put, if_pos hSpace.symm]
        · cases hLast
  kept := by
    intro space hNone
    rw [lastFor_cons, Option.or_eq_none_iff] at hNone
    obtain ⟨hLater, hOther⟩ := hNone
    have hSpace : space ≠ input.model.space := by
      rintro rfl
      simp at hOther
    rw [hRest.kept space hLater, Table.find?_put, if_neg hSpace]
  noted := by
    intro space
    rw [hRest.noted, mem_noted, lastFor_cons, Ne, Ne, Option.or_eq_none_iff, not_and_or,
      or_assoc, or_comm (a := space = _)]
    simp [eq_comm]
  once hNodup := hRest.once (nodup_noted hNodup _)
  progress := by rw [hRest.progress, List.any_cons, Bool.or_assoc]

theorem entered_takeFetched {request : List ExternalImport} {inputs : List ModelInput}
    {files : ModelFiles} {fetched : List String} {progress : Bool}
    {after : ModelFiles × List String × Bool}
    (hTaken : r.takeFetched request files fetched progress inputs = .ok after) :
    Entered r request inputs files fetched progress after := by
  induction inputs generalizing files fetched progress with
  | nil =>
      cases hTaken
      exact ⟨nofun, fun _ _ => rfl, by simp [lastFor], id, by simp⟩
  | cons input rest ih =>
      simp only [takeFetched, Outcome.bind_eq_ok, Outcome.exists_unit] at hTaken
      obtain ⟨file, hMade, _, hTaken⟩ := hTaken
      rw [makeFile_space hMade] at hTaken
      exact (ih hTaken).cons hMade

/-! ## Rounds -/

/-- Asks the source for what is missing and enters the answer. -/
def askOnce (r : Registry) (source : ExternalSource) (n : Nat) (files : ModelFiles)
    (fetched : List String) : Except Failure (ModelFiles × List String × Bool) := do
  let inputs ← source.fetch n (missingImports files)
  r.takeFetched (missingImports files) files fetched false inputs

/-- The loop from the request with a number on, without a bound on the requests. It asks once for
each of the sets of files in the list, with this set as it is at the time, and ends with the
result. -/
inductive Refreshes (r : Registry) (source : ExternalSource) :
    Nat → ModelFiles → List String → List ModelFiles →
      Except Failure (ModelFiles × List String) → Prop where
  | settled {n : Nat} {files : ModelFiles} {fetched : List String}
      (hNone : missingImports files = []) :
      Refreshes r source n files fetched [] (.ok (files, fetched))
  | failed {n : Nat} {files : ModelFiles} {fetched : List String} {failure : Failure}
      (hSome : missingImports files ≠ [])
      (hAnswer : r.askOnce source n files fetched = .error failure) :
      Refreshes r source n files fetched [files] (.error failure)
  | idle {n : Nat} {files next : ModelFiles} {fetched names : List String}
      (hSome : missingImports files ≠ [])
      (hAnswer : r.askOnce source n files fetched = .ok (next, names, false)) :
      Refreshes r source n files fetched [files] (.error (notFetched (missingImports files)))
  | round {n : Nat} {files next : ModelFiles} {fetched names : List String}
      {works : List ModelFiles} {result : Except Failure (ModelFiles × List String)}
      (hSome : missingImports files ≠ [])
      (hAnswer : r.askOnce source n files fetched = .ok (next, names, true))
      (hRest : Refreshes r source (n + 1) next names works result) :
      Refreshes r source n files fetched (files :: works) result

/-- What comes of one more round. -/
theorem fetchMissing_succ {n rounds : Nat} {files : ModelFiles} {fetched : List String}
    (hSome : missingImports files ≠ []) (hLimit : n + (rounds + 1) = source.limit) :
    r.fetchMissing source (rounds + 1) files fetched =
      match r.askOnce source n files fetched with
      | .error failure => ⟨[missingImports files], .error failure⟩
      | .ok (next, names, progress) =>
        if progress then
          let later := r.fetchMissing source rounds next names
          ⟨missingImports files :: later.asked, later.result⟩
        else ⟨[missingImports files], .error (notFetched (missingImports files))⟩ := by
  have hNumber : source.limit - (rounds + 1) = n := by omega
  rw [fetchMissing, hNumber, if_neg (by simpa using hSome)]
  rfl

namespace Refreshes

variable {n : Nat} {files : ModelFiles} {fetched : List String} {works : List ModelFiles}
  {result : Except Failure (ModelFiles × List String)}

/-- A source that may be asked often enough is asked as in the loop. -/
theorem fetchMissing_eq (hRun : r.Refreshes source n files fetched works result) {rounds : Nat}
    (hRounds : works.length ≤ rounds) (hLimit : n + rounds = source.limit) :
    r.fetchMissing source rounds files fetched = ⟨works.map missingImports, result⟩ := by
  induction hRun generalizing rounds with
  | settled hNone => cases rounds <;> simp [fetchMissing, hNone]
  | failed hSome hAnswer =>
      obtain ⟨rounds, rfl⟩ := Nat.exists_eq_add_one.mpr hRounds
      rw [fetchMissing_succ hSome hLimit, hAnswer]
      rfl
  | idle hSome hAnswer =>
      obtain ⟨rounds, rfl⟩ := Nat.exists_eq_add_one.mpr hRounds
      rw [fetchMissing_succ hSome hLimit, hAnswer]
      rfl
  | round hSome hAnswer _ ih =>
      obtain ⟨rounds, rfl⟩ := Nat.exists_eq_add_one.mpr (Nat.zero_lt_of_lt hRounds)
      have hLater := ih (Nat.le_of_succ_le_succ hRounds) (by omega)
      rw [fetchMissing_succ hSome hLimit, hAnswer]
      simp [hLater]

/-- Every request of the loop is one for what is missing then. -/
theorem forall_asks (hRun : r.Refreshes source n files fetched works result) :
    ∀ work ∈ works, Asks work (missingImports work) := by
  induction hRun with
  | settled => simp
  | failed hSome => simpa using asks_missingImports hSome
  | idle hSome => simpa using asks_missingImports hSome
  | round hSome _ _ ih => exact List.forall_mem_cons.mpr ⟨asks_missingImports hSome, ih⟩

end Refreshes

/-- The namespaces of a list that are not loaded. -/
def pending (models : List ModelInput) (files : ModelFiles) : Finset String :=
  (models.map (·.model.space)).toFinset.filter fun space => Table.find? files space = none

theorem card_pending_le (models : List ModelInput) (files : ModelFiles) :
    (pending models files).card ≤ models.length := by
  refine (Finset.card_filter_le _ _).trans ((List.toFinset_card_le _).trans ?_)
  rw [List.length_map]

theorem entered_askOnce (hSource : source.AnswersFrom models) {n : Nat} {files : ModelFiles}
    {fetched : List String} {after : ModelFiles × List String × Bool}
    (hAnswer : r.askOnce source n files fetched = .ok after) :
    ∃ inputs, (∀ space input, lastFor space inputs = some input →
        lastFor space models = some input) ∧
      Entered r (missingImports files) inputs files fetched false after := by
  obtain ⟨inputs, hFetch, hLast⟩ := hSource.lastFor n (missingImports files)
  simp only [askOnce, hFetch, Outcome.bind_eq_ok] at hAnswer
  obtain ⟨_, hInputs, hTaken⟩ := hAnswer
  cases hInputs
  exact ⟨inputs, hLast, entered_takeFetched hTaken⟩

/-- When an answer brought something that was missing, fewer namespaces are left to be loaded. -/
theorem pending_ssubset (hSource : source.AnswersFrom models) {n : Nat} {files next : ModelFiles}
    {fetched names : List String}
    (hAnswer : r.askOnce source n files fetched = .ok (next, names, true)) :
    pending models next ⊂ pending models files := by
  obtain ⟨inputs, hLast, hEntered⟩ := entered_askOnce hSource hAnswer
  refine Finset.ssubset_iff_of_subset ?_ |>.mpr ?_
  · intro space hMem
    obtain ⟨hKnown, hNone⟩ := Finset.mem_filter.mp hMem
    cases hSupplied : lastFor space inputs with
    | none => exact Finset.mem_filter.mpr ⟨hKnown, hEntered.kept space hSupplied ▸ hNone⟩
    | some input =>
        obtain ⟨file, _, hFound⟩ := hEntered.supplied space input hSupplied
        cases hFound.symm.trans hNone
  · have hProgress := hEntered.progress
    rw [Bool.false_or, eq_comm, List.any_eq_true] at hProgress
    obtain ⟨input, hInput, hAsked⟩ := hProgress
    obtain ⟨wanted, hWanted, hSpace⟩ := List.any_eq_true.mp hAsked
    have hSpace : wanted.space = input.model.space := by simpa using hSpace
    have hMissing := (mem_missingImports.mp (List.mem_map_of_mem (f := (·.space)) hWanted)).2
    obtain ⟨last, hSupplied⟩ : ∃ last, lastFor input.model.space inputs = some last :=
      Option.ne_none_iff_exists'.mp fun hNone => lastFor_eq_none.mp hNone input hInput rfl
    obtain ⟨hModel, hLastSpace⟩ := mem_of_lastFor (hLast _ _ hSupplied)
    obtain ⟨file, _, hFound⟩ := hEntered.supplied _ _ hSupplied
    refine ⟨input.model.space, Finset.mem_filter.mpr ⟨?_, hSpace ▸ hMissing⟩, ?_⟩
    · exact List.mem_toFinset.mpr (List.mem_map.mpr ⟨last, hModel, hLastSpace⟩)
    · exact fun hMem => nomatch hFound.symm.trans (Finset.mem_filter.mp hMem).2

/-- A source that knows a fixed list of models is asked at most once more than the list has
namespaces that are not loaded. -/
theorem exists_refreshes (r : Registry) (hSource : source.AnswersFrom models) (n : Nat)
    (files : ModelFiles) (fetched : List String) :
    ∃ works result, r.Refreshes source n files fetched works result ∧
      works.length ≤ (pending models files).card + 1 := by
  induction hCard : (pending models files).card using Nat.strong_induction_on
    generalizing n files fetched with
  | _ count ih =>
  subst hCard
  by_cases hNone : missingImports files = []
  · exact ⟨_, _, .settled hNone, by simp⟩
  cases hAnswer : r.askOnce source n files fetched with
  | error failure => exact ⟨_, _, .failed hNone hAnswer, by simp⟩
  | ok after =>
      obtain ⟨next, names, progress⟩ := after
      cases progress with
      | false => exact ⟨_, _, .idle hNone hAnswer, by simp⟩
      | true =>
          have hLess := Finset.card_lt_card (pending_ssubset hSource hAnswer)
          obtain ⟨works, result, hRest, hLength⟩ := ih _ hLess (n + 1) next names rfl
          exact ⟨_, _, .round hNone hAnswer hRest, Nat.succ_le_succ (hLength.trans hLess)⟩

/-! ## What is left behind -/

/-- The namespaces that were fetched are noted once and stand for the models that the source has
for them last. All others are as in the registry. -/
structure Refreshed (r : Registry) (models : List ModelInput) (files : ModelFiles)
    (fetched : List String) : Prop where
  once : fetched.Nodup
  supplied : ∀ space ∈ fetched, ∃ input file, lastFor space models = some input ∧
    r.makeFile input = .ok file ∧ Table.find? files space = some file
  kept : ∀ space, space ∉ fetched → Table.find? files space = Table.find? r.files space

theorem refreshed_start (r : Registry) (models : List ModelInput) :
    Refreshed r models r.files [] := ⟨List.nodup_nil, nofun, fun _ _ => rfl⟩

theorem Refreshed.askOnce (hSource : source.AnswersFrom models) {n : Nat}
    {files next : ModelFiles} {fetched names : List String} {progress : Bool}
    (hFiles : Refreshed r models files fetched)
    (hAnswer : r.askOnce source n files fetched = .ok (next, names, progress)) :
    Refreshed r models next names := by
  obtain ⟨inputs, hLast, hEntered⟩ := entered_askOnce hSource hAnswer
  refine ⟨hEntered.once hFiles.once, ?_, ?_⟩
  · intro space hMem
    cases hSupplied : lastFor space inputs with
    | some input =>
        obtain ⟨file, hMade, hFound⟩ := hEntered.supplied space input hSupplied
        exact ⟨input, file, hLast space input hSupplied, hMade, hFound⟩
    | none =>
        have hBefore := ((hEntered.noted space).mp hMem).resolve_right (not_not_intro hSupplied)
        obtain ⟨input, file, hKnown, hMade, hFound⟩ := hFiles.supplied space hBefore
        exact ⟨input, file, hKnown, hMade, (hEntered.kept space hSupplied).trans hFound⟩
  · intro space hOther
    obtain ⟨hBefore, hNone⟩ := not_or.mp fun h => hOther ((hEntered.noted space).mpr h)
    rw [hEntered.kept space (not_not.mp hNone), hFiles.kept space hBefore]

theorem Refreshes.refreshed (hSource : source.AnswersFrom models) {n : Nat} {files : ModelFiles}
    {fetched : List String} {works : List ModelFiles}
    {result : Except Failure (ModelFiles × List String)}
    (hRun : r.Refreshes source n files fetched works result)
    (hFiles : Refreshed r models files fetched) {next : ModelFiles} {names : List String}
    (hResult : result = .ok (next, names)) :
    missingImports next = [] ∧ Refreshed r models next names := by
  induction hRun with
  | settled hNone =>
      cases hResult
      exact ⟨hNone, hFiles⟩
  | failed => cases hResult
  | idle => cases hResult
  | round _ hAnswer _ ih => exact ih (hFiles.askOnce hSource hAnswer) hResult

/-- What an update comes to once its loop has ended: it fails as the loop has failed, it leaves the
registry as it is if nothing was fetched, and else it swaps in the files of the loop, if they pass
strict validation. -/
inductive Concludes (r : Registry) : Except Failure (ModelFiles × List String) →
    Except Failure (Registry × List String) → Prop where
  | failed (failure : Failure) : Concludes r (.error failure) (.error failure)
  | unchanged (files : ModelFiles) : Concludes r (.ok (files, [])) (.ok (r, []))
  | refused {files : ModelFiles} {fetched : List String} {failure : Failure}
      (hSome : fetched ≠ []) (hBuild : r.withFiles files .strict = .error failure) :
      Concludes r (.ok (files, fetched)) (.error failure)
  | swapped {files : ModelFiles} {fetched : List String} {next : Registry}
      (hSome : fetched ≠ []) (hBuild : r.withFiles files .strict = .ok next) :
      Concludes r (.ok (files, fetched)) (.ok (next, fetched))

/-- An update by a source that may be asked often enough makes the requests of the loop, and ends
as the loop has ended. -/
theorem Refreshes.updateExternal {works : List ModelFiles}
    {result : Except Failure (ModelFiles × List String)}
    (hRun : r.Refreshes source 0 r.files [] works result) (hLimit : works.length ≤ source.limit) :
    (r.updateExternal source).asked = works.map missingImports ∧
      r.Concludes result (r.updateExternal source).result := by
  have hFetched := hRun.fetchMissing_eq hLimit (Nat.zero_add _)
  refine ⟨congrArg Fetched.asked hFetched, ?_⟩
  simp only [Registry.updateExternal, hFetched]
  cases result with
  | error failure => exact .failed failure
  | ok found =>
      obtain ⟨files, fetched⟩ := found
      cases fetched with
      | nil => exact .unchanged files
      | cons first rest =>
          change r.Concludes _ ((r.withFiles files .strict).bind fun next =>
            .ok (next, first :: rest))
          cases hBuild : r.withFiles files .strict with
          | error failure => exact .refused (List.cons_ne_nil first rest) hBuild
          | ok next => exact .swapped (List.cons_ne_nil first rest) hBuild

/-- Files that pass strict validation are swapped in. -/
theorem Concludes.eq_swapped {files : ModelFiles} {fetched : List String} {next : Registry}
    {ended : Except Failure (Registry × List String)}
    (hEnd : r.Concludes (.ok (files, fetched)) ended)
    (hSome : fetched ≠ []) (hBuild : r.withFiles files .strict = .ok next) :
    ended = .ok (next, fetched) := by
  cases hEnd with
  | unchanged => exact absurd rfl hSome
  | refused _ hRefused => cases hRefused.symm.trans hBuild
  | swapped _ hSwapped => rw [Except.ok.inj (hSwapped.symm.trans hBuild)]

/-- What is swapped in when the loop has ended. -/
theorem Concludes.refreshed (hSource : source.AnswersFrom models) {works : List ModelFiles}
    {result : Except Failure (ModelFiles × List String)}
    (hRun : r.Refreshes source 0 r.files [] works result) {next : Registry}
    {fetched : List String} (hEnd : r.Concludes result (.ok (next, fetched))) :
    if fetched = [] then next = r
    else missingImports next.files = [] ∧ next.validate = .ok () ∧
      Refreshed r models next.files fetched := by
  cases hEnd with
  | unchanged files => rfl
  | swapped hSome hBuild =>
      obtain ⟨hNone, hRefreshed⟩ := hRun.refreshed hSource (refreshed_start r models) rfl
      obtain ⟨rfl, hBuild⟩ := withFiles_eq_ok hBuild
      rw [if_neg hSome]
      exact ⟨hNone, validate_of_build hBuild, hRefreshed⟩

end Registry

namespace Session

/-- A source that knows a fixed list of models, and does not tire before it was asked once more
than the list is long, is asked until the loop ends by itself. The requests of the update are those
of the loop: each is one for what is missing among the files as they are then. If namespaces were
fetched and the files of the loop pass strict validation, then they are swapped in: nothing is
missing any longer, and the fetched namespaces alone have changed, which stand for the last of their
models. Otherwise the session stays as it is. -/
theorem refresh_of_fixed_list (s : Session) {source : ExternalSource} {models : List ModelInput}
    (hSource : source.AnswersFrom models) (hLimit : models.length < source.limit) :
    ∃ works result, s.registry.Refreshes source 0 s.registry.files [] works result ∧
      works.length ≤ models.length + 1 ∧
      (s.registry.updateExternal source).asked = works.map Registry.missingImports ∧
      s.registry.Concludes result (s.registry.updateExternal source).result ∧
      (∀ work ∈ works, Registry.Asks work (Registry.missingImports work)) ∧
      (∀ next fetched, (s.registry.updateExternal source).result = .ok (next, fetched) →
        if fetched = [] then s.step (.updateExternal source) = (s, none)
        else s.step (.updateExternal source) = (⟨next, .strict⟩, none) ∧
          Registry.missingImports next.files = [] ∧ next.validate = .ok () ∧
          Registry.Refreshed s.registry models next.files fetched) ∧
      ∀ failure, (s.registry.updateExternal source).result = .error failure →
        s.step (.updateExternal source) = (s, some failure) := by
  obtain ⟨works, result, hRun, hLength⟩ :=
    s.registry.exists_refreshes hSource 0 s.registry.files []
  have hShort : works.length ≤ models.length + 1 :=
    hLength.trans (Nat.succ_le_succ (Registry.card_pending_le models s.registry.files))
  obtain ⟨hAsked, hEnd⟩ := hRun.updateExternal (hShort.trans hLimit)
  refine ⟨works, result, hRun, hShort, hAsked, hEnd, hRun.forall_asks, ?_, ?_⟩
  · intro next fetched hNext
    have hLeft := Registry.Concludes.refreshed hSource hRun (hNext ▸ hEnd)
    have hStep : s.step (.updateExternal source) =
        (⟨next, if !fetched.isEmpty then .strict else s.mode⟩, none) := by
      simp only [step, Registry.perform, hNext]
      rfl
    cases fetched with
    | nil =>
        rw [if_pos rfl] at hLeft
        rw [if_pos rfl, hStep, hLeft]
        rfl
    | cons first rest =>
        rw [if_neg (List.cons_ne_nil first rest)] at hLeft ⊢
        exact ⟨hStep, hLeft⟩
  · intro failure hFailed
    simp only [step, Registry.perform, hFailed]
    rfl

end Session

namespace Shop

theorem missingImports_staying_parts :
    Registry.missingImports (registry.staying parts) = [⟨parts, none⟩] := rfl

/-- The parts come back into the files from which they were taken. -/
theorem takeFetched_parts :
    registry.takeFetched (Registry.missingImports (registry.staying parts))
      (registry.staying parts) [] false [⟨partsModel, none⟩] =
        .ok (registry.files, [parts], true) := rfl

end Shop

namespace Session

/-- Orders need the parts that were taken out. A source that knows them is asked once, and then
the shop is as before. -/
theorem refresh_of_parts :
    let source : ExternalSource := ⟨2, fun _ _ => .ok [⟨Shop.partsModel, none⟩]⟩
    let s := initial.run [.addModels [⟨Shop.partsModel, none⟩, ⟨Shop.model, none⟩] false,
      .removeModel Shop.parts]
    source.AnswersFrom [⟨Shop.partsModel, none⟩] ∧
      (s.registry.updateExternal source).asked = [[⟨Shop.parts, none⟩]] ∧
      (s.registry.updateExternal source).result = .ok (Shop.registry, [Shop.parts]) ∧
      s.step (.updateExternal source) = (⟨Shop.registry, .strict⟩, none) ∧
      Registry.missingImports Shop.registry.files = [] := by
  intro source s
  have hSource : source.AnswersFrom [⟨Shop.partsModel, none⟩] := .inl fun _ _ => rfl
  obtain ⟨next, hNext⟩ := Registry.exists_removeModel Shop.mem_userSpaces
  obtain ⟨index, rfl⟩ := Registry.exists_index_of_removeModel hNext
  have hState : s.registry =
      { Shop.registry with files := Shop.registry.staying Shop.parts, index } := by
    change ((initial.run [.addModels [⟨Shop.partsModel, none⟩, ⟨Shop.model, none⟩] false]).step
      (.removeModel Shop.parts)).1.registry = _
    simp only [step, Registry.perform, Shop.run_models, hNext]
    rfl
  have hRun : s.registry.Refreshes source 0 s.registry.files []
      [Shop.registry.staying Shop.parts] (.ok (Shop.registry.files, [Shop.parts])) := by
    have hMissing : Registry.missingImports (Shop.registry.staying Shop.parts) ≠ [] := by
      simp [Shop.missingImports_staying_parts]
    rw [hState]
    exact .round hMissing Shop.takeFetched_parts (.settled rfl)
  have hLimit : [Shop.registry.staying Shop.parts].length ≤ source.limit := by decide
  obtain ⟨hAsked, hEnd⟩ := hRun.updateExternal hLimit
  have hSwapped : s.registry.withFiles Shop.registry.files .strict = .ok Shop.registry := by
    rw [Registry.withFiles_of_build Shop.build_files, hState]
  have hResult : (s.registry.updateExternal source).result = .ok (Shop.registry, [Shop.parts]) :=
    hEnd.eq_swapped (List.cons_ne_nil _ _) hSwapped
  obtain ⟨_, _, _, _, _, _, _, hDone, _⟩ := refresh_of_fixed_list s hSource (by decide)
  obtain ⟨hStep, hNone, _⟩ := hDone _ _ hResult
  exact ⟨hSource, hAsked, hResult, hStep, hNone⟩

end Session

end DomainModels
