import DomainModels.DateTime.Basic
import DomainModels.Pattern.Sample
import DomainModels.Validator.Basic

/-!
Sources of primitive values.

A source supplies the values while an instance is generated. The empty source gives zeros and empty
texts, moved into the bounds of the validators; the sample source gives random values within them.
Texts for a pattern are drawn from the pattern in both.
-/

namespace DomainModels

open DomainModels.Random (Source)

/-- Supplies primitive values that respect validators. A source has a state. -/
structure ValueSource (σ : Type) where
  boolean : StateM σ Bool
  integer : Option NumberValidator → StateM σ Int64
  long : Option NumberValidator → StateM σ Int64
  double : Option NumberValidator → StateM σ Float
  dateTime : StateM σ DateTime
  string : Option TextValidator → StateM σ String
  /-- The place of a value among so many of an enumeration. -/
  enumIndex : Nat → StateM σ Nat
  /-- The length of arrays and maps. -/
  arrayLength : StateM σ Nat
  identifier : Option TextValidator → StateM σ String

/-! ## Numbers -/

/-- The width of the range that is sampled where a bound is missing. -/
def sampleSpan : Float := 100000.0

/-- The range of values that a validator leaves. -/
def doubleRange (validator : Option NumberValidator) : Float × Float :=
  match validator.bind (·.lower), validator.bind (·.upper) with
  | some lower, some upper => (lower, upper)
  | some lower, none => (lower, lower + sampleSpan)
  | none, some upper => (upper - sampleSpan, upper)
  | none, none => (-sampleSpan, sampleSpan)

/-- The integers of the range that a validator leaves; at least the first one. -/
def integerRange (validator : Option NumberValidator) : Int64 × Int64 :=
  let (lower, upper) := doubleRange validator
  let first := lower.ceil.toInt64
  let last := upper.floor.toInt64
  (first, if last < first then first else last)

/-- Zero, or the bound that is next to it. -/
def nearestInteger (validator : Option NumberValidator) : Int64 :=
  let (first, last) := integerRange validator
  if 0 < first then first else if last < 0 then last else 0

/-- Zero, or the bound that is next to it. -/
def nearestDouble (validator : Option NumberValidator) : Float :=
  let (lower, upper) := doubleRange validator
  if 0.0 < lower then lower else if upper < 0.0 then upper else 0.0

/-! ## Texts -/

/-- Words that fill texts. -/
def fillers : List String :=
  ["lorem", "ipsum", "dolor", "sit", "amet", "consectetur", "adipiscing", "elit", "sed", "do",
   "eiusmod", "tempor", "incididunt", "ut", "labore", "magna"]

/-- The filler at a place; after the last one they start again. -/
def filler (i : Nat) : String := fillers.getD (i % fillers.length) "x"

/-- A text with the filler at a place after it. -/
def appendFiller (text : String) (i : Nat) : String :=
  (if text.isEmpty then text else text ++ " ") ++ filler i

/-- Appends fillers from a place on while a text is shorter than `min`, at most `steps` of them. -/
def pad (min : Nat) (text : String) (i : Nat) : (steps : Nat) → String
  | 0 => text
  | steps + 1 =>
    if text.length < min then pad min (appendFiller text i) (i + 1) steps else text

/-- The text, padded to the least length of a validator and then cut to the greatest one. Every
filler makes a text longer, so that `min` of them are enough. -/
def fitLength (text : String) (validator : Option TextValidator) : String :=
  let min := (validator.bind (·.minLength)).getD 0
  let padded := pad min text 0 min
  match validator.bind (·.maxLength) with
  | some max => if max < padded.length then String.ofList (padded.toList.take max) else padded
  | none => padded

/-- How often a text is drawn from a pattern before the pattern is given up. -/
def patternTries : Nat := 16

/-- A text of a pattern that passes the validator, if one is drawn within the tries. -/
def drawMatch (validator : TextValidator) (node : Pattern.Node) :
    (tries : Nat) → StateM Source (Option String)
  | 0 => return none
  | tries + 1 => do
    match ← node.sample with
    | none => return none
    | some cs =>
      let text := String.ofList cs
      if (validator.check "$" text).isOk then return some text
      else drawMatch validator node tries

/-- A text of the pattern of a validator, if it has one that can be sampled. -/
def samplePattern (validator : Option TextValidator) : StateM Source (Option String) :=
  match validator with
  | none => return none
  | some v =>
    match v.inlinePattern?.bind Pattern.sampled? with
    | none => return none
    | some node => drawMatch v node patternTries

/-- A text of the pattern, or the fitted one that `other` gives. -/
def textOr (validator : Option TextValidator) (other : StateM Source String) :
    StateM Source String := do
  match ← samplePattern validator with
  | some text => return text
  | none => return fitLength (← other) validator

/-! ## The two sources -/

namespace ValueSource

/-- False, zeros, empty texts and arrays, and the given time. Patterns are sampled from the seed
zero. -/
def empty (now : DateTime) : ValueSource Source where
  boolean := return false
  integer v := return nearestInteger v
  long v := return nearestInteger v
  double v := return nearestDouble v
  dateTime := return now
  string v := textOr v (return "")
  enumIndex _ := return 0
  arrayLength := return 0
  identifier v := textOr v (return "0000")

/-- One to five words. -/
def words : StateM Source String := do
  let count := 1 + (← Random.below32 5)
  let chosen ← (List.range count).mapM fun _ => Random.below64 fillers.length
  return " ".intercalate (chosen.map filler)

/-- The start of 2020, in seconds since the start of 1970. -/
def sampleStart : Int := 1577836800

/-- The seconds of five years of 365 days. -/
def sampleSeconds : Nat := 5 * 365 * 24 * 3600

/-- Random values: arrays of one element, instants of the years from 2020 on, identifiers of four
digits. -/
def sample : ValueSource Source where
  boolean := Random.bool
  integer v := let (first, last) := integerRange v; Random.int64 first last
  long v := let (first, last) := integerRange v; Random.int64 first last
  double v :=
    let (lower, upper) := doubleRange v
    if upper ≤ lower then return lower else Random.double lower upper
  dateTime := do return ⟨sampleStart + (← Random.below64 sampleSeconds), 0, 0⟩
  string v := textOr v words
  enumIndex count := Random.below64 (max count 1)
  arrayLength := return 1
  identifier v := textOr v do return DateTime.padded 4 (← Random.below32 10000)

end ValueSource

end DomainModels
