import DomainModels.Decimal.Layout
import DomainModels.Json.Basic
import DomainModels.Text.Shown

/-!
Why a JSON tree is not a model.
-/

namespace DomainModels.Metamodel

/-- What was found in place of an expected node. -/
inductive Found where
  | null
  | bool (value : Bool)
  | integer (value : Int)
  | double (value : Float)
  | string (value : String)
  | sequence
  | map

/-- A fault in the shape of a node. -/
inductive NodeFault where
  | missingField (name : String)
  | wrongType (found : Found) (expected : String)
  | outOfRange (value : Int) (expected : String)
  | unknownVariant (name : String) (known : List String)
  | variantIndex (index : Nat) (count : Nat)
  | wrongLength (length : Nat) (expected : String)

/-- A fault in a model tree. -/
inductive Fault where
  | noClass
  | malformedClass (name : String)
  | otherVersion (found : String)
  | foreignClass (name : String)
  | unexpectedNode (expected found : String)
  | node (fault : NodeFault)

/-- The description of a JSON tree by its outermost form. -/
def Found.ofJson : Json → Found
  | .null => .null
  | .bool b => .bool b
  | .number (.int i) => .integer i
  | .number (.float x) => .double x
  | .string s => .string s
  | .array _ => .sequence
  | .object _ => .map

def Found.message : Found → String
  | .null => "null"
  | .bool b => s!"boolean `{b}`"
  | .integer i => s!"integer `{i}`"
  | .double x => "floating point `" ++ DoubleFormat.wire.render x ++ "`"
  | .string s => "string " ++ Text.quote s
  | .sequence => "sequence"
  | .map => "map"

/-- The known names of a choice, in code quotes. -/
def choices : List String → String
  | [] => "there are no variants"
  | [a] => s!"expected `{a}`"
  | [a, b] => s!"expected `{a}` or `{b}`"
  | names => "expected one of " ++ ", ".intercalate (names.map fun name => s!"`{name}`")

def NodeFault.message : NodeFault → String
  | .missingField name => s!"missing field `{name}`"
  | .wrongType found expected => s!"invalid type: {found.message}, expected {expected}"
  | .outOfRange value expected => s!"invalid value: integer `{value}`, expected {expected}"
  | .unknownVariant name known => s!"unknown variant `{name}`, {choices known}"
  | .variantIndex index count =>
    s!"invalid value: integer `{index}`, expected variant index 0 <= i < {count}"
  | .wrongLength length expected => s!"invalid length {length}, expected {expected}"

end DomainModels.Metamodel
