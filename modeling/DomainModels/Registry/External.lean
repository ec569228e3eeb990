import DomainModels.Registry.Change

/-!
Loading the models that loaded models import.

As long as imported namespaces are missing, a source is asked for them. Each answer has to bring at
least one of the namespaces that it was asked for.
-/

namespace DomainModels

/-- An imported namespace that is not loaded, and where it can be fetched. -/
structure ExternalImport where
  space : String
  uri : Option String
  deriving DecidableEq, Repr

/-- Answers requests for namespaces. The first argument of `fetch` counts the requests from zero.

Models may go on to import others for ever, so `limit` bounds the number of requests. The bound is
not part of the loop: where it is reached, the request that would come next is left out, and the
loop ends as if the source had brought nothing. A source that is not asked up to its limit is asked
as in the loop without a bound. -/
structure ExternalSource where
  limit : Nat
  fetch : Nat → List ExternalImport → Except Failure (List ModelInput)

/-- What came of asking a source: the requests, and the result. -/
structure Fetched (α : Type) where
  asked : List (List ExternalImport)
  result : Except Failure α

namespace Registry

/-- Notes that a namespace is missing. The first place that is known for it stays. -/
def noteMissing (table : Table (Option String)) (wanted : String × Option String) :
    Table (Option String) :=
  table.put wanted.1 (((table.find? wanted.1).getD none) <|> wanted.2)

/-- The imported namespaces that are not loaded, in their order. -/
def missingImports (files : ModelFiles) : List ExternalImport :=
  let wanted := (Table.values files).flatMap fun file =>
    file.importedSpaces.filter fun (space, _) => !Table.contains files space
  (wanted.foldl noteMissing []).map fun (space, uri) => ⟨space, uri⟩

/-- Enters fetched models into the files, whatever has been there before. Gives the files, the
namespaces fetched so far, each once, and whether one of the missing ones came. -/
def takeFetched (r : Registry) (missing : List ExternalImport) (files : ModelFiles)
    (fetched : List String) (progress : Bool) :
    List ModelInput → Except Failure (ModelFiles × List String × Bool)
  | [] => .ok (files, fetched, progress)
  | input :: rest => do
    let file ← r.makeFile input
    checkNotSystem file.space
    let progress := progress || missing.any (·.space = file.space)
    let fetched := if fetched.contains file.space then fetched else fetched ++ [file.space]
    r.takeFetched missing (Table.put file.space file files) fetched progress rest

/-- No answer brought what was asked for. -/
def notFetched (missing : List ExternalImport) : Failure :=
  let spaces := missing.map (·.space)
  .missing (", ".intercalate spaces) (.notFetched spaces)

/-- Asks the source until nothing is missing, at most as often as the first argument says. When no
requests are left and something is missing, the source is not asked once more. -/
def fetchMissing (r : Registry) (source : ExternalSource) :
    Nat → ModelFiles → List String → Fetched (ModelFiles × List String)
  | 0, files, fetched =>
    let missing := missingImports files
    ⟨[], if missing.isEmpty then .ok (files, fetched) else .error (notFetched missing)⟩
  | rounds + 1, files, fetched =>
    let missing := missingImports files
    if missing.isEmpty then ⟨[], .ok (files, fetched)⟩
    else
      let answer := do
        let inputs ← source.fetch (source.limit - (rounds + 1)) missing
        r.takeFetched missing files fetched false inputs
      match answer with
      | .error failure => ⟨[missing], .error failure⟩
      | .ok (files, fetched, progress) =>
        if progress then
          let later := r.fetchMissing source rounds files fetched
          ⟨missing :: later.asked, later.result⟩
        else ⟨[missing], .error (notFetched missing)⟩

/-- Loads the namespaces that are imported and not loaded. Gives the next registry, and the
namespaces that were added or replaced. -/
def updateExternal (r : Registry) (source : ExternalSource) : Fetched (Registry × List String) :=
  let found := r.fetchMissing source source.limit r.files []
  { asked := found.asked
    result := do
      let (files, fetched) ← found.result
      if fetched.isEmpty then return (r, [])
      return (← r.withFiles files .strict, fetched) }

end Registry

end DomainModels
