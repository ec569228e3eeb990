/-!
Paths of the form `$.owner.addresses[0].city`, which name a place in a JSON tree.
-/

namespace DomainModels

/-- One step into a tree: to a member of an object or to an element of an array. -/
inductive Segment where
  | field (name : String)
  | index (i : Nat)
  deriving DecidableEq, Repr

/-- The steps from the root of a tree to a place in it. -/
structure Path where
  segments : List Segment
  deriving DecidableEq, Repr

def Segment.render : Segment → String
  | .field name => "." ++ name
  | .index i => s!"[{i}]"

namespace Path

/-- The place of the whole tree. -/
def root : Path := ⟨[]⟩

/-- The place of a member of the object at this path. -/
def field (path : Path) (name : String) : Path := ⟨path.segments ++ [.field name]⟩

/-- The place of an element of the array at this path. -/
def index (path : Path) (i : Nat) : Path := ⟨path.segments ++ [.index i]⟩

/-- The text of a path, whose root is a dollar sign. -/
def render (path : Path) : String :=
  path.segments.foldl (fun text segment => text ++ segment.render) "$"

end Path

end DomainModels
