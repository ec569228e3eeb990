import DomainModels.Names
import DomainModels.Uri.Basic

/-!
Pointers to identified instances, and their URIs `resource:<namespace>.<Type>#<id>`.
-/

namespace DomainModels

/-- A pointer to the instance of a type that has the given identifier. -/
structure Relationship where
  space : String
  typeName : String
  id : String
  deriving DecidableEq, Repr

namespace Relationship

/-- Why a text is not a pointer. -/
inductive Fault where
  | emptyText
  | badUri (text : String) (fault : Uri.Fault)
  | badScheme (text : String)
  | badFormat (text : String)
  | noIdentifier (text : String)
  deriving DecidableEq, Repr

def Fault.message : Fault → String
  | .emptyText => "Invalid resource URI: identifier is empty"
  | .badUri text fault => s!"Invalid URI: {text}: {fault.message}"
  | .badScheme text => s!"Invalid URI scheme: {text}"
  | .badFormat text => s!"Invalid resource URI format: {text}"
  | .noIdentifier text => s!"Invalid resource URI format: {text} has no identifier"

/-- Scheme of the URIs of instances. -/
def scheme : String := "resource"

/-- The fully-qualified name of the type that is pointed to. -/
def fqn (r : Relationship) : String := qualify r.space r.typeName

/-- The fully-qualified name of the type and the identifier. -/
def fullyQualifiedId (r : Relationship) : String := r.fqn ++ "#" ++ r.id

/-- The URI of a pointer, in which the identifier is percent-encoded. -/
def toUri (r : Relationship) : String :=
  scheme ++ ":" ++ r.fqn ++ "#" ++ String.ofList (Percent.encode r.id.toList)

/-- The pointer that the parts of a URI stand for. A type without a namespace is one of the default
namespace, and an empty path stands for the default type. -/
def ofParts? (path id : List Char) (defaultSpace defaultType : String) : Option Relationship :=
  let fqn := String.ofList (Percent.decode path)
  let id := String.ofList (Percent.decode id)
  if id = "" then none
  else
    match splitQualified fqn with
    | some (space, name) => some ⟨space, name, id⟩
    | none => some ⟨defaultSpace, if fqn = "" then defaultType else fqn, id⟩

/-- Reads the URI of a pointer. A text without a scheme is the identifier of an instance of the
default type. -/
def ofUri (text defaultSpace defaultType : String) : Except Fault Relationship :=
  match Uri.parse text with
  | .error .noScheme =>
    if text = "" then .error .emptyText else .ok ⟨defaultSpace, defaultType, text⟩
  | .error fault => .error (.badUri text fault)
  | .ok uri =>
    if uri.scheme ≠ scheme.toList then .error (.badScheme text)
    else if uri.hasCredentials || uri.portNumber.isSome || uri.query.isSome then
      .error (.badFormat text)
    else
      match uri.fragment.bind (ofParts? uri.path · defaultSpace defaultType) with
      | some r => .ok r
      | none => .error (.noIdentifier text)

end Relationship

end DomainModels
