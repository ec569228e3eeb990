/-!
JSON trees that keep the order of their members.

An object is the list of its members in the order in which they were written, each name once.
A number keeps the two forms in which texts write it: an integer of at most 64 bits, or a double.
-/

namespace DomainModels

/-- A JSON number: an integer literal, or a literal with a fraction or an exponent. -/
inductive Number where
  | int (value : Int)
  | float (value : Float)

/-- A JSON tree. The names of an object's members are distinct and their order is kept. -/
inductive Json where
  | null
  | bool (value : Bool)
  | number (value : Number)
  | string (value : String)
  | array (items : List Json)
  | object (members : List (String × Json))

instance : Inhabited Json := ⟨.null⟩

/-- Whether 64 bits hold an integer with its sign. -/
def isInt64 (i : Int) : Bool := Int64.minValue.toInt ≤ i && i ≤ Int64.maxValue.toInt

namespace Number

/-- The double nearest to an integer of at most 64 bits. -/
def nearestDouble (i : Int) : Float :=
  let magnitude := (UInt64.ofNat i.natAbs).toFloat
  if i < 0 then -magnitude else magnitude

/-- The double nearest to an integer of 64 bits. -/
def ofInt64 (i : Int64) : Float := nearestDouble i.toInt

/-- The number as a double. Integers are rounded to the nearest one. -/
def toFloat : Number → Float
  | .int i => nearestDouble i
  | .float x => x

/-- The number as an integer of 64 bits, if it is one. Doubles without a fraction count. -/
def toInt64? : Number → Option Int64
  | .int i => if isInt64 i then some (Int64.ofInt i) else none
  | .float x =>
    if x.floor == x && -9223372036854775808.0 ≤ x && x < 9223372036854775808.0 then
      some x.toInt64
    else none

end Number

namespace Json

/-- The integer `i` as a JSON number. -/
def int (i : Int) : Json := .number (.int i)

/-- The double `x` as a JSON number. -/
def float (x : Float) : Json := .number (.float x)

def isNull : Json → Bool
  | .null => true
  | _ => false

def string? : Json → Option String
  | .string s => some s
  | _ => none

def bool? : Json → Option Bool
  | .bool b => some b
  | _ => none

def number? : Json → Option Number
  | .number n => some n
  | _ => none

def array? : Json → Option (List Json)
  | .array items => some items
  | _ => none

def object? : Json → Option (List (String × Json))
  | .object members => some members
  | _ => none

/-- The member called `name`, when the tree is an object that has one. -/
def get? (json : Json) (name : String) : Option Json :=
  json.object?.bind (·.lookup name)

/-- Writes a member into an object: an existing name keeps its place and takes the new value, a
new name goes to the end. -/
def insertMember (name : String) (value : Json) : List (String × Json) → List (String × Json)
  | [] => [(name, value)]
  | member :: rest =>
    if member.1 = name then (name, value) :: rest else member :: insertMember name value rest

/-- A member found in an object is smaller than the object. -/
theorem sizeOf_lookup {members : List (String × Json)} {name : String} {value : Json}
    (hFound : members.lookup name = some value) : sizeOf value < sizeOf members := by
  induction members with
  | nil => simp at hFound
  | cons member rest ih =>
    obtain ⟨key, inner⟩ := member
    rw [List.lookup_cons] at hFound
    split at hFound
    · obtain rfl := Option.some.inj hFound
      simp +arith
    · have := ih hFound
      simp +arith
      omega

end Json

end DomainModels
