import DomainModels.Text.Split

/-!
Names of namespaces and types, and the names that are reserved.
-/

namespace DomainModels

/-- Namespace of the built-in root model. -/
def rootNamespace : String := "concerto@1.0.0"

/-- Short names of the root types, which every model file can use without an import. -/
def rootTypes : List String := ["Concept", "Asset", "Participant", "Transaction", "Event"]

/-- Wire member that names the class of an object. -/
def classKey : String := "$class"

/-- Wire member that carries the URI of an object. -/
def idKey : String := "$id"

/-- Name of the identifier that the system supplies. -/
def identifierField : String := "$identifier"

/-- Name of the time stamp of transactions and events. -/
def timestampField : String := "$timestamp"

/-- Names of the properties that stand for the keys and the values of a map. -/
def mapKeyField : String := "$key"

def mapValueField : String := "$value"

/-- The fully-qualified name of a type in a namespace. -/
def qualify (space name : String) : String := space ++ "." ++ name

/-- Takes a fully-qualified name apart at its last point. Both parts have to be non-empty. -/
def splitQualified (fqn : String) : Option (String × String) :=
  match Text.cutLast '.' fqn.toList with
  | some (c :: space, d :: name) => some (String.ofList (c :: space), String.ofList (d :: name))
  | _ => none

/-- Names that begin with a dollar sign belong to the system. -/
def isSystemName (name : String) : Bool := name.toList.head? = some '$'

/-- The fully-qualified names of the root types. -/
def isRootType (fqn : String) : Bool :=
  match splitQualified fqn with
  | some (space, name) => space = rootNamespace && rootTypes.contains name
  | none => false

/-- In one namespace different names stay different. -/
theorem qualify_inj {space name other : String} :
    qualify space name = qualify space other ↔ name = other := by
  simp only [qualify, ← String.toList_inj, String.toList_append, List.append_cancel_left_eq]

/-- A name that splits is the qualification of its parts. -/
theorem qualify_of_splitQualified {fqn space name : String}
    (hSplit : splitQualified fqn = some (space, name)) : qualify space name = fqn := by
  unfold splitQualified at hSplit
  split at hSplit
  · rename_i c front d back hCut
    simp only [Option.some.injEq, Prod.mk.injEq] at hSplit
    obtain ⟨rfl, rfl⟩ := hSplit
    rw [← String.toList_inj, Text.cutLast_eq_some hCut]
    simp [qualify]
  · simp at hSplit

end DomainModels
