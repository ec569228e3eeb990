import DomainModels.Metamodel.Basic
import DomainModels.Metamodel.Fault

/-!
Reading nodes of a model tree.

A record is read field by field. Its members may come by name, in any order, or as a sequence in
the order of the fields. Of several faults the one that stands first in the tree is reported, and
absent fields come after all faults in members that are there.

A tagged node names its form in a member `$class`, which is looked at before all others. Inside a
tagged node two details differ, which `inside` records: forms may be named by their number, and a
sequence that is too long is described by the length that was expected.
-/

namespace DomainModels.Metamodel

/-- A reader of one node. -/
abbrev NodeReader (α : Type) := (inside : Bool) → Json → Except NodeFault α

/-! ## Single values -/

def readText : NodeReader String := fun _ json =>
  match json with
  | .string s => .ok s
  | _ => .error (.wrongType (.ofJson json) "a string")

def readFlag : NodeReader Bool := fun _ json =>
  match json with
  | .bool b => .ok b
  | _ => .error (.wrongType (.ofJson json) "a boolean")

def readInt64 : NodeReader Int64 := fun _ json =>
  match json with
  | .number (.int i) =>
    if isInt64 i then .ok (Int64.ofInt i) else .error (.outOfRange i "i64")
  | _ => .error (.wrongType (.ofJson json) "i64")

def readUInt32 : NodeReader UInt32 := fun _ json =>
  match json with
  | .number (.int i) =>
    if 0 ≤ i ∧ i < UInt32.size then .ok (UInt32.ofNat i.toNat) else .error (.outOfRange i "u32")
  | _ => .error (.wrongType (.ofJson json) "u32")

/-- A double may also be written as an integer. -/
def readDouble : NodeReader Float := fun _ json =>
  match json with
  | .number n => .ok n.toFloat
  | _ => .error (.wrongType (.ofJson json) "f64")

/-- The items of a sequence; the first fault among them is reported. -/
def readItems {α : Type} (item : NodeReader α) : NodeReader (List α) := fun inside json =>
  match json with
  | .array items => items.mapM (item inside)
  | _ => .error (.wrongType (.ofJson json) "a sequence")

/-- A value that may be null. -/
def readNullable {α : Type} (value : NodeReader α) : NodeReader (Option α) := fun inside json =>
  match json with
  | .null => .ok none
  | _ => (value inside json).map some

/-! ## Records -/

/-- A fault with the place of its member among the members of the record. -/
structure FieldFault where
  place : Nat
  fault : NodeFault

/-- A reader of some fields of a record. Its function takes the number of fields before these and
the members of the record. -/
structure FieldReader (α : Type) where
  names : List String
  run : (inside : Bool) → (before : Nat) → List (String × Json) → Except FieldFault α

namespace FieldReader

/-- Of two readings with faults the fault that stands first counts. -/
def combine {α β : Type} (f : Except FieldFault (α → β)) (x : Except FieldFault α) :
    Except FieldFault β :=
  match f, x with
  | .ok f, .ok x => .ok (f x)
  | .error e, .ok _ => .error e
  | .ok _, .error e => .error e
  | .error e, .error e' => .error (if e'.place < e.place then e' else e)

/-- Reads no fields and has the given value. -/
def constant {α : Type} (value : α) : FieldReader α := ⟨[], fun _ _ _ => .ok value⟩

/-- Reads the fields of both readers. -/
def seq {α β : Type} (f : FieldReader (α → β)) (x : FieldReader α) : FieldReader β where
  names := f.names ++ x.names
  run inside before members :=
    combine (f.run inside before members) (x.run inside (before + f.names.length) members)

/-- Reads a field with what is done when it is absent. -/
def field {α : Type} (name : String) (value : NodeReader α) (absent : Except NodeFault α) :
    FieldReader α where
  names := [name]
  run inside before members :=
    match members.lookup name with
    | some json =>
      (value inside json).mapError fun fault => ⟨members.findIdx (·.1 == name), fault⟩
    | none => absent.mapError fun fault => ⟨members.length + before, fault⟩

/-- A field that has to be there. -/
def required {α : Type} (name : String) (value : NodeReader α) : FieldReader α :=
  field name value (.error (.missingField name))

/-- A field that takes a default when it is absent. -/
def defaulted {α : Type} (name : String) (value : NodeReader α) (default : α) : FieldReader α :=
  field name value (.ok default)

/-- A field that may be absent or null. -/
def optional {α : Type} (name : String) (value : NodeReader α) : FieldReader (Option α) :=
  field name (readNullable value) (.ok none)

/-- A list that is empty when it is absent. -/
def listed {α : Type} (name : String) (item : NodeReader α) : FieldReader (List α) :=
  field name (readItems item) (.ok [])

end FieldReader

instance : Functor FieldReader where
  map f x := .seq (.constant f) x

instance : Pure FieldReader := ⟨FieldReader.constant⟩

instance : Seq FieldReader := ⟨fun f x => FieldReader.seq f (x ())⟩

/-- "1 element", "2 elements". -/
def elementCount (n : Nat) : String := if n = 1 then "1 element" else s!"{n} elements"

/-- Reads the fields of a record from its members. -/
def readMembers {α : Type} (fields : FieldReader α) (inside : Bool)
    (members : List (String × Json)) : Except NodeFault α :=
  (fields.run inside 0 members).mapError FieldFault.fault

/-- Reads the fields of a record from a sequence in the order of the fields. -/
def readSequence {α : Type} (label : String) (fields : FieldReader α) (inside : Bool)
    (items : List Json) : Except NodeFault α :=
  let count := fields.names.length
  let members := fields.names.zip items
  match fields.run inside 0 members with
  | .error e =>
    if e.place < members.length then .error e.fault
    else
      .error (.wrongLength (e.place - members.length) s!"{label} with {elementCount count}")
  | .ok value =>
    if items.length ≤ count then .ok value
    else if inside then .error (.wrongLength items.length s!"{elementCount count} in sequence")
    else .error (.wrongLength items.length "fewer elements in array")

/-- A record that stands on its own. -/
def readRecord {α : Type} (label : String) (fields : FieldReader α) : NodeReader α :=
  fun inside json =>
    match json with
    | .object members => readMembers fields inside members
    | .array items => readSequence label fields inside items
    | _ => .error (.wrongType (.ofJson json) label)

/-! ## Tagged nodes -/

/-- One form of a tagged node: its class, and the reader of what stands beside the tag. A form
without fields has no label and accepts any members. -/
structure Form (α : Type) where
  className : String
  label : Option String
  fields : FieldReader α

namespace Form

/-- A form that is a record of its own. -/
def record {α : Type} (name label : String) (fields : FieldReader α) : Form α :=
  ⟨nodeClass name, some label, fields⟩

/-- A form that consists of its tag. -/
def plain {α : Type} (name : String) (value : α) : Form α :=
  ⟨nodeClass name, none, pure value⟩

/-- The form that a tag names. -/
def select {α : Type} (forms : List (Form α)) (inside : Bool) (tag : Json) :
    Except NodeFault (Form α) :=
  match tag with
  | .string name =>
    match forms.find? (·.className == name) with
    | some form => .ok form
    | none => .error (.unknownVariant name (forms.map Form.className))
  | .number (.int i) =>
    if inside ∧ 0 ≤ i then
      match forms[i.toNat]? with
      | some form => .ok form
      | none => .error (.variantIndex i.toNat forms.length)
    else .error (.wrongType (.ofJson tag) "variant identifier")
  | _ => .error (.wrongType (.ofJson tag) "variant identifier")

end Form

/-- A node whose form is named by its tag. -/
def readTagged {α : Type} (label : String) (forms : List (Form α)) : NodeReader α :=
  fun inside json =>
    match json with
    | .object members =>
      match members.lookup "$class" with
      | none => .error (.missingField "$class")
      | some tag => do
        let form ← Form.select forms inside tag
        readMembers form.fields true (members.filter (·.1 != "$class"))
    | .array [] => .error (.missingField "$class")
    | .array (tag :: items) => do
      let form ← Form.select forms inside tag
      readSequence (form.label.getD "") form.fields true items
    | _ => .error (.wrongType (.ofJson json) s!"internally tagged enum {label}")

end DomainModels.Metamodel
