import DomainModels.Version

/-!
Namespaces: a dotted name, with a semantic version after an at sign.
-/

namespace DomainModels

/-- A namespace with its version, if it carries one. -/
structure Namespace where
  name : String
  version : Option Version
  deriving DecidableEq, Repr

namespace Namespace

/-- Why a text is not a namespace. -/
inductive Fault where
  | badVersion (version text : String) (fault : Version.Fault)
  | malformed (text : String)
  | unversioned (text : String)
  deriving DecidableEq, Repr

def Fault.message : Fault → String
  | .badVersion version text fault =>
    s!"Invalid namespace version \"{version}\" in \"{text}\": {fault.message}"
  | .malformed text => s!"Invalid namespace \"{text}\""
  | .unversioned text =>
    s!"Namespace \"{text}\" is not versioned; expected \"{text}@<major>.<minor>.<patch>\""

/-- Letters of any script, underscores and dollar signs begin a segment. -/
def isSegmentStart (c : Char) : Bool := Unicode.isLetter c || c = '_' || c = '$'

/-- Numbers of any script may follow. -/
def isSegmentChar (c : Char) : Bool := isSegmentStart c || Unicode.isNumber c

/-- One part of a dotted name. -/
def isSegment : List Char → Bool
  | [] => false
  | c :: rest => isSegmentStart c && rest.all isSegmentChar

/-- A dotted name of one or more segments. -/
def isName (name : List Char) : Bool := (Text.cutAll '.' name).all isSegment

/-- The text of a namespace. -/
def render (n : Namespace) : String :=
  match n.version with
  | some version => n.name ++ "@" ++ version.render
  | none => n.name

/-- Reads a namespace. What follows the first at sign is its version. -/
def parse (text : String) : Except Fault Namespace :=
  match Text.cutFirst '@' text.toList with
  | some (name, version) =>
    match Version.parse (String.ofList version) with
    | .error fault => .error (.badVersion (String.ofList version) text fault)
    | .ok version =>
      if isName name then .ok ⟨String.ofList name, some version⟩ else .error (.malformed text)
  | none => if isName text.toList then .ok ⟨text, none⟩ else .error (.malformed text)

/-- Reads a namespace that has to carry a version. -/
def parseVersioned (text : String) : Except Fault Namespace :=
  match parse text with
  | .error fault => .error fault
  | .ok n => if n.version.isSome then .ok n else .error (.unversioned text)

/-- Two namespaces are compatible when they share the name and, if both carry a version, the major
number. -/
def isCompatibleWith (a b : Namespace) : Bool :=
  match a.version, b.version with
  | some v, some w => a.name = b.name && v.major = w.major
  | _, _ => a.name = b.name

end Namespace

end DomainModels
