import DomainModels.Registry.Change

/-!
Loading models from the files of a directory.

The files of a directory are read in the order of their paths, part by part, so that the content of
a folder stands where the folder does. Files that are no JSON files are passed over.
-/

namespace DomainModels

/-- A file with its path below the directory, whose parts are joined by slashes. -/
structure SourceFile where
  path : String
  content : ByteArray

/-- Which files are loaded, by how their paths begin. An empty list of included paths means all of
them. -/
structure LoadFilter where
  skipped : List String
  included : List String
  deriving DecidableEq, Repr

/-- Build products and the folders of tools are skipped. -/
def LoadFilter.default : LoadFilter :=
  ⟨["target/", ".git/", "node_modules/", ".cargo/"], []⟩

namespace SourceFile

/-- The names of the folders and of the file. -/
def parts (f : SourceFile) : List String := (Text.cutAll '/' f.path.toList).map String.ofList

/-- The name without the folders. -/
def name (f : SourceFile) : String := f.parts.getLast?.getD ""

/-- Whether the name of the file ends in `.json` and has something before it. -/
def isJson (f : SourceFile) : Bool :=
  match Text.cutLast '.' f.name.toList with
  | some (_ :: _, ending) => ending = "json".toList
  | _ => false

/-- The path with every backslash turned into a slash. -/
def shownPath (f : SourceFile) : String :=
  String.ofList (f.path.toList.map fun c => if c = '\\' then '/' else c)

/-- The models in a file, which are reported under the given name. -/
def models (f : SourceFile) (shownName : String) : Except Failure (List ModelInput) :=
  match String.fromUTF8? f.content with
  | none => .error .fileTrouble
  | some text =>
    match Json.parse text with
    | .error fault => .error (.illegal (.badText fault) ⟨some shownName, none⟩)
    | .ok json => ModelInput.ofJson json (some shownName)

end SourceFile

namespace LoadFilter

/-- Whether a path begins with one of several texts. -/
def beginsWithAny (path : String) (starts : List String) : Bool :=
  starts.any fun start => start.toList.isPrefixOf path.toList

/-- Whether a path is loaded. -/
def admits (filter : LoadFilter) (path : String) : Bool :=
  (filter.included.isEmpty || beginsWithAny path filter.included)
    && !beginsWithAny path filter.skipped

end LoadFilter

/-- The models in the files of a directory. -/
def loadDirectory (files : List SourceFile) (filter : LoadFilter) :
    Except Failure (List ModelInput) := do
  let chosen := files.filter fun f => f.isJson && filter.admits f.shownPath
  let sorted := chosen.mergeSort fun a b => !b.parts.lex a.parts
  return (← sorted.mapM fun f => f.models f.shownPath).flatten

/-- The models in the file at a path. -/
def loadFile (files : List SourceFile) (path : String) : Except Failure (List ModelInput) :=
  match files.find? (·.path = path) with
  | some f => f.models f.name
  | none => .error .fileTrouble

/-- A registry of the models in a directory. -/
def Registry.ofDirectory (files : List SourceFile) (filter : LoadFilter)
    (disableValidation : Bool) : Except Failure Registry := do
  let inputs ← loadDirectory files filter
  let (r, _) ← Registry.initial.addModels inputs disableValidation
  return r

end DomainModels
