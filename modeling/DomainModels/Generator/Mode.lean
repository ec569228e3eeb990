import DomainModels.Generator.Walk

/-!
The two ways of generating instances, by name.
-/

namespace DomainModels

/-- Empty instances hold zeros, sample instances hold random values. -/
inductive GeneratorMode where
  | empty
  | sample
  deriving DecidableEq, Repr

namespace GeneratorMode

def name : GeneratorMode → String
  | .empty => "empty"
  | .sample => "sample"

/-- The mode of a name. -/
def ofName? (name : String) : Option GeneratorMode := [empty, sample].find? (·.name = name)

/-- What is said of a text that names no mode. -/
def unknownMessage (text : String) : String :=
  s!"Unknown generator mode '{text}', expected 'empty' or 'sample'"

/-- The source of the values of a mode. -/
def source (now : DateTime) : GeneratorMode → ValueSource Random.Source
  | .empty => .empty now
  | .sample => .sample

/-- The state in which the source of a mode starts. -/
def start (seed : UInt64) : GeneratorMode → Random.Source
  | .empty => .ofSeed 0
  | .sample => .ofSeed seed

end GeneratorMode

end DomainModels
