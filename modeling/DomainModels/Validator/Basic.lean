import DomainModels.Decimal.Layout
import DomainModels.Json.Basic
import DomainModels.Metamodel.Basic
import DomainModels.Pattern.Parser

/-!
Validators of fields: bounds on numbers, and patterns and length bounds for texts.

A validator is built once, when a model is loaded, and a validator that makes no sense is refused
there. Values are checked against it later.
-/

namespace DomainModels

/-- Why a validator is refused. -/
inductive ValidatorFault where
  | noBounds
  | boundsCrossed (lower upper : Float)
  | unknownFlag (flag : Char) (pattern flags : String)
  | badPattern (pattern flags : String)
  | negativeLength (label : String) (length : Int64)
  | lengthsCrossed (min max : Nat)
  | noConstraint

/-- How a value breaks a validator; `path` names the field. -/
inductive Violation where
  | belowLower (value : Float) (path : String) (bound : Float)
  | aboveUpper (value : Float) (path : String) (bound : Float)
  | tooShort (text path : String) (min : Nat)
  | tooLong (text path : String) (max : Nat)
  | noMatch (text path pattern flags : String)

/-- The text of a number in a message. -/
def numberText (x : Float) : String := DoubleFormat.message.render x

def ValidatorFault.message : ValidatorFault → String
  | .noBounds => "Invalid range, lower and upper bound cannot both be missing"
  | .boundsCrossed lower upper =>
    "Lower bound " ++ numberText lower ++ " must be less than or equal to upper bound "
      ++ numberText upper
  | .unknownFlag flag pattern flags =>
    s!"Unsupported regex flag \"{flag}\" in /{pattern}/{flags}"
  | .badPattern pattern flags => s!"Invalid regex /{pattern}/{flags}"
  | .negativeLength label length =>
    s!"{label} must be a non-negative integer, got {length.toInt}"
  | .lengthsCrossed min max =>
    s!"minLength {min} must be less than or equal to maxLength {max}"
  | .noConstraint => "String validator must specify a pattern or a length bound"

def Violation.message : Violation → String
  | .belowLower value path bound =>
    "Value " ++ numberText value ++ " at path `" ++ path ++ "` is outside lower bound "
      ++ numberText bound
  | .aboveUpper value path bound =>
    "Value " ++ numberText value ++ " at path `" ++ path ++ "` is outside upper bound "
      ++ numberText bound
  | .tooShort text path min =>
    s!"The string length of \"{text}\" at path `{path}` should be at least {min}"
  | .tooLong text path max =>
    s!"The string length of \"{text}\" at path `{path}` should not exceed {max}"
  | .noMatch text path pattern flags =>
    s!"Value \"{text}\" at path `{path}` failed to match validation regex: /{pattern}/{flags}"

/-! ## Numbers -/

/-- Inclusive bounds on numbers. -/
structure NumberValidator where
  lower : Option Float
  upper : Option Float

namespace NumberValidator

/-- Bounds, at least one of which is given and which do not cross. -/
def make (lower upper : Option Float) : Except ValidatorFault NumberValidator :=
  match lower, upper with
  | none, none => .error .noBounds
  | some l, some u => if u < l then .error (.boundsCrossed l u) else .ok ⟨lower, upper⟩
  | _, _ => .ok ⟨lower, upper⟩

/-- Bounds of integers become doubles. -/
def ofInt64 (bounds : Metamodel.Bounds Int64) : Except ValidatorFault NumberValidator :=
  make (bounds.lower.map Number.ofInt64) (bounds.upper.map Number.ofInt64)

def ofDouble (bounds : Metamodel.Bounds Float) : Except ValidatorFault NumberValidator :=
  make bounds.lower bounds.upper

/-- Checks a number. The lower bound is looked at first. -/
def check (v : NumberValidator) (path : String) (value : Float) : Except Violation Unit := do
  if let some lower := v.lower then
    if value < lower then .error (.belowLower value path lower)
  if let some upper := v.upper then
    if upper < value then .error (.aboveUpper value path upper)

/-- The text of the bounds. -/
def render (v : NumberValidator) : String :=
  let bound (b : Option Float) : String := (b.map numberText).getD ""
  "range=[" ++ bound v.lower ++ "," ++ bound v.upper ++ "]"

end NumberValidator

/-! ## Texts -/

/-- A pattern with its flags, as written and as read. -/
structure CompiledPattern where
  source : Metamodel.TextPattern
  node : Pattern.Node

/-- The flags that letters set. The letter `u` changes nothing. -/
def patternFlags (source : Metamodel.TextPattern) :
    Pattern.Flags → List Char → Except ValidatorFault Pattern.Flags
  | flags, [] => .ok flags
  | flags, c :: rest =>
    match c with
    | 'i' => patternFlags source { flags with ignoreCase := true } rest
    | 'm' => patternFlags source { flags with multiLine := true } rest
    | 's' => patternFlags source { flags with dotAll := true } rest
    | 'u' => patternFlags source flags rest
    | _ => .error (.unknownFlag c source.pattern source.flags)

/-- Reads a pattern under its flags. -/
def CompiledPattern.make (source : Metamodel.TextPattern) :
    Except ValidatorFault CompiledPattern := do
  let flags ← patternFlags source .default source.flags.toList
  match Pattern.parse? flags source.pattern with
  | some node => .ok ⟨source, node⟩
  | none => .error (.badPattern source.pattern source.flags)

/-- A pattern and bounds on the number of characters. -/
structure TextValidator where
  pattern : Option CompiledPattern
  minLength : Option Nat
  maxLength : Option Nat

namespace TextValidator

/-- A length bound, which may not be negative. -/
def lengthBound (label : String) : Option Int64 → Except ValidatorFault (Option Nat)
  | none => .ok none
  | some n => if n < 0 then .error (.negativeLength label n) else .ok (some n.toInt.toNat)

/-- A validator with at least one constraint, whose length bounds do not cross. -/
def make (pattern : Option Metamodel.TextPattern) (minLength maxLength : Option Int64) :
    Except ValidatorFault TextValidator := do
  let pattern ← pattern.mapM CompiledPattern.make
  let minLength ← lengthBound "minLength" minLength
  let maxLength ← lengthBound "maxLength" maxLength
  if let (some min, some max) := (minLength, maxLength) then
    if max < min then .error (.lengthsCrossed min max)
  if pattern.isNone ∧ minLength.isNone ∧ maxLength.isNone then .error .noConstraint
  .ok ⟨pattern, minLength, maxLength⟩

/-- The validator of a field that has a pattern, length bounds or neither. -/
def ofNode? (pattern : Option Metamodel.TextPattern) (length : Option Metamodel.TextLength) :
    Except ValidatorFault (Option TextValidator) :=
  if pattern.isNone ∧ length.isNone then .ok none
  else (make pattern (length.bind (·.minLength)) (length.bind (·.maxLength))).map some

/-- Checks a text: its length first, and then the pattern. -/
def check (v : TextValidator) (path text : String) : Except Violation Unit := do
  if let some min := v.minLength then
    if text.length < min then .error (.tooShort text path min)
  if let some max := v.maxLength then
    if max < text.length then .error (.tooLong text path max)
  if let some pattern := v.pattern then
    if !pattern.node.matchesIn text then
      .error (.noMatch text path pattern.source.pattern pattern.source.flags)

/-- The flags of the pattern, none without a pattern. -/
def flags (v : TextValidator) : String := (v.pattern.map (·.source.flags)).getD ""

/-- The pattern with its flags written at its start. -/
def inlinePattern? (v : TextValidator) : Option String :=
  v.pattern.map fun p =>
    let letters := p.source.flags.toList.filter fun c => c = 'i' || c = 'm' || c = 's'
    if letters.isEmpty then p.source.pattern
    else "(?" ++ String.ofList letters ++ ")" ++ p.source.pattern

end TextValidator

/-- A validator of either kind. -/
inductive Validator where
  | number (v : NumberValidator)
  | text (v : TextValidator)

def Validator.number? : Validator → Option NumberValidator
  | .number v => some v
  | .text _ => none

def Validator.text? : Validator → Option TextValidator
  | .text v => some v
  | .number _ => none

end DomainModels
