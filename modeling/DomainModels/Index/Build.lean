import DomainModels.Index.Class

/-!
Building the type index of a set of model files.

A strict build fails at the first fault. A lenient build leaves out what is faulty and never fails.
-/

namespace DomainModels

/-- Whether a faulty declaration makes a build fail or is left out. -/
inductive BuildMode where
  | strict
  | lenient
  deriving DecidableEq, Repr

namespace BuildMode

/-- A result, or nothing where a lenient build goes on after a fault. -/
def tolerate {α : Type} : BuildMode → Except Failure α → Except Failure (Option α)
  | _, .ok a => .ok (some a)
  | .strict, .error failure => .error failure
  | .lenient, .error _ => .ok none

/-- The results that are there. A strict build ends at the first fault. -/
def collect {α : Type} (mode : BuildMode) : List (Except Failure α) → Except Failure (List α)
  | [] => .ok []
  | result :: rest => do
    match ← mode.tolerate result with
    | some a => return a :: (← mode.collect rest)
    | none => mode.collect rest

end BuildMode

namespace TypeIndex

/-- Each text of a list once, at the place of its last occurrence. -/
def lastOccurrences : List String → List String
  | [] => []
  | name :: rest =>
    if rest.contains name then lastOccurrences rest else name :: lastOccurrences rest

/-- Items in the order of the names that they bear; of two with one name the later one stays. -/
def arrange {α : Type} (nameOf : α → String) (names : List String) (items : List α) : List α :=
  (lastOccurrences names).filterMap fun name => items.reverse.find? (nameOf · = name)

/-- The names of the declarations, in the order of the files. -/
def declaredNames (files : ModelFiles) : List String :=
  (ModelFiles.declarations files).map fun (_, d) => d.fqn

/-- The names of the classes, in the order of the files. -/
def classNames (files : ModelFiles) : List String :=
  (ModelFiles.declarations files).filterMap fun (_, d) => d.class?.map fun _ => d.fqn

/-- Resolves the classes of a list of names in turn, with what is known from the ones before. -/
def resolveEach (files : ModelFiles) (mode : BuildMode) :
    List String → ModelFiles.Findings → Except Failure (List ResolvedClass)
  | [], _ => .ok []
  | fqn :: rest, known => do
    let (result, known) := ModelFiles.resolveClass files [] fqn known
    match ← mode.tolerate result with
    | some c => return c :: (← resolveEach files mode rest known)
    | none => resolveEach files mode rest known

/-- Resolves the classes of all files. -/
def resolveClasses (files : ModelFiles) (mode : BuildMode) :
    Except Failure (List ResolvedClass) :=
  resolveEach files mode (classNames files) []

/-- Resolves the maps of all files. -/
def resolveMaps (files : ModelFiles) (mode : BuildMode) : Except Failure (List ResolvedMap) :=
  mode.collect <| (ModelFiles.declarations files).filterMap fun (file, d) =>
    match d.body with
    | .mapBody key value => some (file.resolveMap files d key value)
    | _ => none

/-- The fault of a relationship whose target is an indexed class without an identifier. -/
def pointerFault? (index : TypeIndex) (p : ResolvedProperty) : Option Failure :=
  match p.type with
  | .relationship target =>
    match index.class? target with
    | some c =>
      if c.isIdentified then none
      else some (.illegal (.unidentifiedTarget p.name target) ⟨none, p.property.location⟩)
    | none => none
  | _ => none

/-- The faults of relationships, each with the class or the map that declares it, in the order of
the names of these. -/
def pointerFaults (index : TypeIndex) : List (String × Failure) :=
  let ofClasses := index.classes.flatMap fun c =>
    c.ownProperties.filterMap fun p => (index.pointerFault? p).map fun f => (c.fqn, f)
  let ofMaps := index.maps.filterMap fun m => (index.pointerFault? m.value).map fun f => (m.fqn, f)
  (ofClasses ++ ofMaps).mergeSort fun a b => a.1 ≤ b.1

/-- An index without the classes and maps of the given names. -/
def without (index : TypeIndex) (names : List String) : TypeIndex where
  classes := index.classes.filter fun c => !names.contains c.fqn
  maps := index.maps.filter fun m => !names.contains m.fqn

/-- Refuses relationships to classes without an identifier, or leaves out what declares them. -/
def checkPointers (mode : BuildMode) (index : TypeIndex) : Except Failure TypeIndex := do
  let faults := index.pointerFaults
  let _ ← mode.collect (faults.map fun (_, failure) => (.error failure : Except Failure Unit))
  return index.without (faults.map (·.1))

/-- The index of a set of model files. The files are checked first, then the classes and the maps
are resolved, and last the relationships are checked. -/
def build (files : ModelFiles) (mode : BuildMode) : Except Failure TypeIndex := do
  let _ ← mode.collect ((Table.values files).map fun file => file.check files)
  let classes ← resolveClasses files mode
  let maps ← resolveMaps files mode
  let names := declaredNames files
  checkPointers mode {
    classes := arrange (·.fqn) names classes
    maps := arrange (·.fqn) names maps }

end TypeIndex

end DomainModels
